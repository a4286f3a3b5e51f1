import SchemaLedger.Engine.Token
import SchemaLedger.Engine.Cell
/-!
# Dates and times

Dates are counted in days and times in microseconds from the beginning of 1970,
by the Gregorian calendar extended in both directions. Reading is lenient about
what follows a date or a time.
-/

namespace SchemaLedger.Engine.Calendar

/-- The days from the beginning of 1970 to a date. Years are counted from
March, so that the leap day is the last one of a year. -/
def daysOf (year month day : Int) : Int :=
  let y := if month ≤ 2 then year - 1 else year
  let era := y.fdiv 400
  let yearOfEra := y - era * 400
  let monthFromMarch := (month + 9) % 12
  let dayOfYear := (153 * monthFromMarch + 2) / 5 + day - 1
  let dayOfEra := yearOfEra * 365 + yearOfEra / 4 - yearOfEra / 100 + dayOfYear
  era * 146097 + dayOfEra - 719468

def dateOf (days : Int) : Int × Int × Int :=
  let z := days + 719468
  let era := z.fdiv 146097
  let dayOfEra := z - era * 146097
  let yearOfEra :=
    (dayOfEra - dayOfEra / 1460 + dayOfEra / 36524 - dayOfEra / 146096) / 365
  let dayOfYear :=
    dayOfEra - (365 * yearOfEra + yearOfEra / 4 - yearOfEra / 100)
  let monthFromMarch := (5 * dayOfYear + 2) / 153
  let day := dayOfYear - (153 * monthFromMarch + 2) / 5 + 1
  let month := if monthFromMarch < 10 then monthFromMarch + 3
    else monthFromMarch - 9
  let year := yearOfEra + era * 400
  (if month ≤ 2 then year + 1 else year, month, day)

def isLeap (year : Int) : Bool :=
  year % 4 == 0 && (year % 100 != 0 || year % 400 == 0)

def daysIn (year : Int) (month : Nat) : Nat :=
  match month with
  | 2 => if isLeap year then 29 else 28
  | 4 | 6 | 9 | 11 => 30
  | _ => 31

def skipSpaces (s : List Char) : List Char :=
  s.dropWhile Token.isSpace

/-- A number of one or two digits. -/
def readTwo? : List Char → Option (Nat × List Char)
  | a :: b :: rest =>
    if a.isDigit && b.isDigit then
      some (SignedDecimal.ofDigits [a, b], rest)
    else if a.isDigit then some (SignedDecimal.ofDigits [a], b :: rest)
    else none
  | [a] => if a.isDigit then some (SignedDecimal.ofDigits [a], []) else none
  | [] => none

/-- A date that is out of reach. -/
def infiniteDays : Int := 2147483647

def afterWord? (word : String) (s : List Char) : Option (List Char) :=
  let front := s.take word.length
  if (String.ofList front).toLower = word then some (s.drop word.length)
  else none

/-- A date, written with its year first, or one of the words for special
dates. A date is special when nothing may follow it. -/
def readDate? (s : List Char) : Option (Int × Bool × List Char) :=
  let s := skipSpaces s
  let (negative, s) :=
    match s with
    | '-' :: rest => (true, rest)
    | s => (false, s)
  let digits := s.takeWhile Char.isDigit
  if digits.isEmpty then
    let special (days : Int) (rest : List Char) :
        Option (Int × Bool × List Char) :=
      if (skipSpaces rest).isEmpty then some (days, true, []) else none
    match afterWord? "infinity" s, afterWord? "epoch" s with
    | some rest, _ => special (if negative then -infiniteDays else infiniteDays)
        rest
    | none, some rest => special 0 rest
    | none, none => none
  else if 9 < digits.length then none
  else do
    let magnitude : Int := SignedDecimal.ofDigits digits
    let year := if negative then -magnitude else magnitude
    let separator :: rest := s.drop digits.length | none
    if !([' ', '-', '/', '\\'].contains separator) then none
    let (month, rest) ← readTwo? rest
    let second :: rest := rest | none
    if second != separator then none
    let (day, rest) ← readTwo? rest
    let (year, rest) :=
      match rest with
      | ' ' :: '(' :: 'B' :: 'C' :: ')' :: rest => (1 - year, rest)
      | rest => (year, rest)
    if (rest.head?).any Char.isDigit then none
    else if month < 1 || 12 < month || day < 1 || daysIn year month < day then
      none
    else some (daysOf year month day, false, rest)

/-- The digits behind a point as a number of the given places, further digits
being dropped. -/
def readFraction (places : Nat) (digits : List Char) : Nat :=
  SignedDecimal.ofDigits
    (digits.take places ++ List.replicate (places - digits.length) '0')

/-- A time of day: hours, minutes and perhaps seconds, which may have a
fraction. The time is in nanoseconds. -/
def readTime? (s : List Char) : Option (Nat × List Char) := do
  let s := skipSpaces s
  let hours := s.takeWhile Char.isDigit
  if hours.isEmpty || 9 < hours.length then none
  let ':' :: rest := s.drop hours.length | none
  let (minute, rest) ← readTwo? rest
  if 60 ≤ minute then none
  let (second, fraction, rest) ←
    match rest with
    | ':' :: rest => do
      let (second, rest) ← readTwo? rest
      if 60 ≤ second then none
      match rest with
      | '.' :: rest =>
        let digits := rest.takeWhile Char.isDigit
        some (second, readFraction 9 digits, rest.drop digits.length)
      | rest => some (second, 0, rest)
    | rest => some (0, 0, rest)
  some (((SignedDecimal.ofDigits hours * 60 + minute) * 60 + second) * 1000000000
    + fraction, rest)

/-- The distance from universal time, in seconds, behind a time. -/
def readOffset? (s : List Char) : Option (Int × List Char) :=
  let signed (sign : Int) (rest : List Char) : Option (Int × List Char) := do
    let (hour, rest) ← readTwo? rest
    match rest with
    | ':' :: rest' =>
      let (minute, rest) ← readTwo? rest'
      some (sign * (hour * 3600 + minute * 60), rest)
    | rest => some (sign * (hour * 3600), rest)
  match s with
  | [] => some (0, [])
  | 'Z' :: rest => some (0, rest)
  | '+' :: rest => signed 1 rest
  | '-' :: rest => signed (-1) rest
  | s =>
    match afterWord? "utc" (skipSpaces s) with
    | some rest => some (0, rest)
    | none => some (0, s)

def readInstant? (s : List Char) : Option Int := do
  let (days, special, rest) ← readDate? s
  if special || rest.isEmpty then some (days * 86400 * 1000000000)
  else
    let rest :=
      match rest with
      | ' ' :: rest => rest
      | 'T' :: rest => rest
      | rest => rest
    if (skipSpaces rest).isEmpty then some (days * 86400 * 1000000000)
    else
      let (nanos, rest) ← readTime? rest
      if 86400 * 1000000000 < nanos then none
      let (offset, rest) ← readOffset? rest
      if (skipSpaces rest).isEmpty then
        some ((days * 86400 - offset) * 1000000000 + nanos)
      else none

def nanosOf (u : TimeUnit) : Int :=
  1000000000 / (u.perSecond : Int)

/-- A count of one unit in another one, rounded half up where it becomes
coarser. -/
def convert (u v : TimeUnit) (n : Int) : Int :=
  let nanos := n * nanosOf u
  if u.perSecond ≤ v.perSecond then nanos / nanosOf v
  else (nanos + nanosOf v / 2).fdiv (nanosOf v)

def padded (places : Nat) (n : Nat) : String :=
  let digits := toString n
  String.ofList (List.replicate (places - digits.length) '0') ++ digits

def showDate (days : Int) : String :=
  if days = infiniteDays then "infinity"
  else if days = -infiniteDays then "-infinity"
  else
    let (year, month, day) := dateOf days
    let (year, era) := if year ≤ 0 then (1 - year, " (BC)") else (year, "")
    padded 4 year.toNat ++ "-" ++ padded 2 month.toNat ++ "-"
      ++ padded 2 day.toNat ++ era

/-- The text of a fraction of a second, without the zeros at its end. -/
def showFraction (places n : Nat) : String :=
  if n = 0 then ""
  else
    "." ++ String.ofList
      (((padded places n).toList.reverse.dropWhile (· == '0')).reverse)

def showTime (u : TimeUnit) (n : Nat) : String :=
  let seconds := n / u.perSecond
  let places := (toString u.perSecond).length - 1
  padded 2 (seconds / 3600) ++ ":" ++ padded 2 (seconds / 60 % 60) ++ ":"
    ++ padded 2 (seconds % 60) ++ showFraction places (n % u.perSecond)

def showInstant (u : TimeUnit) (n : Int) : String :=
  let day : Int := 86400 * u.perSecond
  let days := n.fdiv day
  showDate days ++ " " ++ showTime u (n - days * day).toNat

def intervalUnit? (word : String) : Option (Int × Int × Int) :=
  let unit := word.toLower
  if ["year", "years", "y", "yr", "yrs"].contains unit then some (12, 0, 0)
  else if ["month", "months", "mon", "mons"].contains unit then some (1, 0, 0)
  else if ["quarter", "quarters"].contains unit then some (3, 0, 0)
  else if ["decade", "decades"].contains unit then some (120, 0, 0)
  else if ["century", "centuries"].contains unit then some (1200, 0, 0)
  else if ["week", "weeks", "w"].contains unit then some (0, 7, 0)
  else if ["day", "days", "d"].contains unit then some (0, 1, 0)
  else if ["hour", "hours", "hr", "hrs", "h"].contains unit then
    some (0, 0, 3600000000)
  else if ["minute", "minutes", "min", "mins", "m"].contains unit then
    some (0, 0, 60000000)
  else if ["second", "seconds", "sec", "secs", "s"].contains unit then
    some (0, 0, 1000000)
  else if ["millisecond", "milliseconds", "ms", "msec", "msecs"].contains unit
    then some (0, 0, 1000)
  else if ["microsecond", "microseconds", "us", "usec", "usecs"].contains unit
    then some (0, 0, 1)
  else none

def readIntervalParts :
    Nat → Int × Int × Int → List Char → Option (Int × Int × Int)
  | 0, _, _ => none
  | fuel + 1, (months, days, micros), s =>
    match skipSpaces s with
    | [] => some (months, days, micros)
    | c :: cs =>
      let (sign, body) : Int × List Char :=
        match c with
        | '-' => (-1, cs)
        | '+' => (1, cs)
        | _ => (1, c :: cs)
      let digits := body.takeWhile Char.isDigit
      let rest := body.drop digits.length
      if digits.isEmpty then none
      else if rest.head? == some ':' then
        match readTime? body with
        | some (nanos, rest) =>
          readIntervalParts fuel
            (months, days, micros + sign * (nanos / 1000 : Nat)) rest
        | none => none
      else
        let rest := skipSpaces rest
        let word := rest.takeWhile Char.isAlpha
        match intervalUnit? (String.ofList word) with
        | none => none
        | some (m, d, u) =>
          let n : Int := sign * SignedDecimal.ofDigits digits
          readIntervalParts fuel (months + n * m, days + n * d, micros + n * u)
            (rest.drop word.length)

def readInterval? (s : List Char) : Option (Int × Int × Int) :=
  if (skipSpaces s).isEmpty then none
  else readIntervalParts (s.length + 1) (0, 0, 0) s

example : daysOf 2024 1 2 = 19724 := by decide
example : dateOf 19724 = (2024, 1, 2) := by decide
example : daysOf 1970 1 1 = 0 := by decide
example : dateOf (-1) = (1969, 12, 31) := by decide

end SchemaLedger.Engine.Calendar
