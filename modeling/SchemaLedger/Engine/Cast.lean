import SchemaLedger.Engine.Calendar
import SchemaLedger.Engine.Nested
/-!
# Casts

A cell can be cast to a type when it denotes one of its values. Numbers are
rounded where the type is coarser: decimals half away from zero, floating-point
numbers half to even. A cast that would change the range of a number is
refused.
-/

namespace SchemaLedger.Engine

open Shortest (Format)

/-- The quotient, rounded half away from zero. -/
def roundAway (num : Int) (den : Nat) : Int :=
  let q := (2 * num.natAbs + den) / (2 * den)
  if num < 0 then -(q : Int) else q

/-- The quotient, rounded half to even. -/
def roundEven (num : Int) (den : Nat) : Int :=
  let q := Nearest.quotient num.natAbs den
  if num < 0 then -(q : Int) else q

def ratioOf? (f : Format) (bits : Nat) : Option (Int × Nat) :=
  match f.decode bits with
  | .finite negative m e _ =>
    let num : Int := m * Int.pow 2 e.toNat
    some (if negative then -num else num, Nat.pow 2 (-e).toNat)
  | _ => none

def nearest (f : Format) (num : Int) (den : Nat) : Nat :=
  Nearest.ofRatio f (decide (num < 0)) num.natAbs den

/-- A number as it is compared: a ratio. Numbers that are infinite or undefined
have none. -/
def Cell.ratio? : Cell → Option (Int × Nat)
  | .boolean b => some (if b then 1 else 0, 1)
  | .integer _ n => some (n, 1)
  | .float bits => ratioOf? .single bits
  | .double bits => ratioOf? .double bits
  | .decimal _ scale unscaled => some (unscaled, Nat.pow 10 scale)
  | _ => none

namespace Cast

def integer? (t : IntegerType) (n : Int) : Option Cell :=
  if t.contains n then some (.integer t n) else none

def decimal? (width scale : Nat) (unscaled : Int) : Option Cell :=
  if unscaled.natAbs < Nat.pow 10 width then some (.decimal width scale unscaled)
  else none

/-- Single underscores between digits are left out. -/
def withoutUnderscores : List Char → List Char
  | c :: '_' :: d :: rest =>
    if c.isDigit && d.isDigit then c :: withoutUnderscores (d :: rest)
    else c :: '_' :: withoutUnderscores (d :: rest)
  | c :: rest => c :: withoutUnderscores rest
  | [] => []

def ofRadix? (radix : Nat) (digits : List Char) : Option Nat := do
  let values ← digits.mapM fun c =>
    if c.isDigit then some (c.toNat - '0'.toNat)
    else if 'a' ≤ c.toLower && c.toLower ≤ 'f' then
      some (c.toLower.toNat - 'a'.toNat + 10)
    else none
  if values.isEmpty || !values.all (· < radix) then none
  else some (values.foldl (fun n d => n * radix + d) 0)

/-- The decimal a text denotes, unless its power of ten is out of reach. -/
def readDecimal? (s : List Char) : Option SignedDecimal :=
  (SignedDecimal.read? (withoutUnderscores s)).filter fun d =>
    d.exponent.natAbs ≤ 32767

def readInteger? (s : String) : Option Int :=
  match Nested.trim s.toList with
  | '0' :: x :: digits =>
    if x == 'x' || x == 'X' then (ofRadix? 16 digits).map Int.ofNat
    else if x == 'b' || x == 'B' then (ofRadix? 2 digits).map Int.ofNat
    else ofDecimal ('0' :: x :: digits)
  | digits => ofDecimal digits
where
  ofDecimal (s : List Char) : Option Int :=
    (readDecimal? s).map fun d =>
      let num : Int := d.digits * Int.pow 10 d.exponent.toNat
      roundAway (if d.negative then -num else num)
        (Nat.pow 10 (-d.exponent).toNat)

def readFloat? (f : Format) (s : String) : Option Nat :=
  let trimmed := Nested.trim s.toList
  let (negative, body) := SignedDecimal.readSign trimmed
  match (String.ofList body).toLower with
  | "inf" | "infinity" => some (Nearest.infinity f negative)
  | "nan" =>
    some (Nearest.infinity f negative + Nat.pow 2 (f.fractionBits - 1))
  | _ => (SignedDecimal.read? trimmed).map (Nearest.ofDecimal f)

def readBoolean? (s : String) : Option Bool :=
  match s.toLower with
  | "t" | "true" | "y" | "yes" | "1" => some true
  | "f" | "false" | "n" | "no" | "0" => some false
  | _ => none

/-- The bytes a text denotes: ASCII characters stand for themselves, and other
bytes are written behind a backslash. -/
def readBytes? : List Char → Option (List UInt8)
  | [] => some []
  | '\\' :: x :: high :: low :: rest =>
    if x == 'x' || x == 'X' then do
      let byte ← ofRadix? 16 [high, low]
      (byte.toUInt8 :: ·) <$> readBytes? rest
    else none
  | '\\' :: _ => none
  | c :: rest =>
    if c.toNat < 0x80 then (c.toNat.toUInt8 :: ·) <$> readBytes? rest
    else none

def readUuid? (s : String) : Option String :=
  let digits := (s.toList.filter fun c =>
    c != '-' && c != '\x7b' && c != '\x7d').map Char.toLower
  if digits.length = 32 && (ofRadix? 16 digits).isSome then
    some ("-".intercalate
      ([(0, 8), (8, 4), (12, 4), (16, 4), (20, 12)].map fun (start, size) =>
        String.ofList ((digits.drop start).take size)))
  else none

def readTimestamp? (u : TimeUnit) (s : String) : Option Cell :=
  (Calendar.readInstant? s.toList).map fun nanos =>
    .timestamp u (Calendar.convert .microsecond u
      (Calendar.convert .nanosecond .microsecond nanos))

def readTimeOfDay? (s : String) : Option Cell :=
  match Calendar.readTime? s.toList with
  | some (nanos, _) =>
    if nanos ≤ 86400 * 1000000000 then some (.time (nanos / 1000 : Nat)) else none
  | none =>
    (Calendar.readInstant? s.toList).map fun nanos =>
      .time ((nanos / 1000) % 86400000000)

mutual

def ofText? : DataType → String → Option Cell
  | .boolean, s => (readBoolean? s).map .boolean
  | .integer t, s => (readInteger? s).bind (integer? t)
  | .float, s => (readFloat? .single s).map .float
  | .double, s => (readFloat? .double s).map .double
  | .decimal width scale, s =>
    (readDecimal? (Nested.trim s.toList)).bind fun d =>
      let power := d.exponent + scale
      let num : Int := d.digits * Int.pow 10 power.toNat
      decimal? width scale
        (roundAway (if d.negative then -num else num)
          (Nat.pow 10 (-power).toNat))
  | .varchar, s => some (.text s)
  | .blob, s => (readBytes? s.toList).map .blob
  | .bits, s =>
    if s ≠ "" && s.toList.all fun c => c == '0' || c == '1' then some (.text s)
    else none
  | .uuid, s => (readUuid? s).map .text
  | .date, s => (Calendar.readDate? s.toList).map fun r => .date r.1
  | .time, s => readTimeOfDay? s
  | .timestamp .nanosecond, s =>
    (Calendar.readInstant? s.toList).bind fun nanos =>
      if IntegerType.bigint.contains nanos then
        some (.timestamp .nanosecond nanos)
      else none
  | .timestamp u, s => readTimestamp? u s
  | .interval, s =>
    (Calendar.readInterval? s.toList).map fun (months, days, micros) =>
      .interval months days micros
  | .enum labels, s => if labels.contains s then some (.enum s) else none
  | .list t, s => do
    let cells ← (← Nested.items? s).mapM fun p =>
      if p.isNull then some .null else ofText? t p.text
    some (.list cells)
  | .array t size, s => do
    let cells ← (← Nested.items? s).mapM fun p =>
      if p.isNull then some .null else ofText? t p.text
    if cells.length = size then some (.array cells) else none
  | .struct fields, s => do
    let given ← Nested.fields? ':' s
    let known := given.all fun (key, _) =>
      fields.any fun f => f.1.toLower == key.text.toLower
    if known then (ofFields? fields given).map .struct else none
  | .map k v, s => do
    let entries ← (← Nested.fields? '=' s).mapM fun (key, value) => do
      let key ← ofText? k key.text
      let value ← if value.isNull then some .null else ofText? v value.text
      some (key, value)
    some (.map entries)
  | .union members, s => ofMembers? members s

def ofFields? :
    List (String × DataType) → List (Nested.Piece × Nested.Piece) →
      Option (List (String × Cell))
  | [], _ => some []
  | (name, t) :: fields, given => do
    let cell ←
      match given.find? fun item => item.1.text.toLower == name.toLower with
      | none => some .null
      | some (_, value) =>
        if value.isNull then some .null else ofText? t value.text
    let rest ← ofFields? fields given
    some ((name, cell) :: rest)

/-- The first member of a union that a text denotes a value of. -/
def ofMembers? : List (String × DataType) → String → Option Cell
  | [], _ => none
  | (_, t) :: members, s =>
    match ofText? t s with
    | some cell => some (.union cell)
    | none => ofMembers? members s

end

/-- The text of a floating-point number: a whole number keeps `.0`, and the
exponent, if there is one, has a sign and at least two digits. -/
def showFloat (f : Format) (bits : Nat) : String :=
  match f.decode bits with
  | .nan => "nan"
  | .infinite negative => Shortest.sign negative ++ "inf"
  | .finite .. =>
    let literal := (Shortest.literal f bits).toList
    match literal.dropWhile (· != 'e') with
    | _ :: power =>
      let (negative, digits) := SignedDecimal.readSign power
      String.ofList (literal.takeWhile (· != 'e')) ++ "e"
        ++ (if negative then "-" else "+")
        ++ Calendar.padded 2 (SignedDecimal.ofDigits digits)
    | [] => String.ofList literal

def showDecimal (scale : Nat) (unscaled : Int) : String :=
  (if unscaled < 0 then "-" else "")
    ++ (if scale = 0 then toString unscaled.natAbs
      else toString (unscaled.natAbs / Nat.pow 10 scale) ++ "."
        ++ Calendar.padded scale (unscaled.natAbs % Nat.pow 10 scale))

/-- The text of bytes, all but printable ASCII characters written behind a
backslash. -/
def showBytes (bytes : List UInt8) : String :=
  String.join (bytes.map fun b =>
    let c := Char.ofNat b.toNat
    if 0x20 ≤ b && b ≤ 0x7E && c != '\\' && c != '"' && c != '\'' then
      String.singleton c
    else
      "\\x" ++ String.ofList
        ((Nat.toDigits 16 (b.toNat / 16) ++ Nat.toDigits 16 (b.toNat % 16)).map
          Char.toUpper))

def counted (n : Int) (unit : String) : String :=
  toString n ++ " " ++ unit ++ (if n = 1 || n = -1 then "" else "s")

def showInterval (months days micros : Int) : String :=
  let years := months.tdiv 12
  let months := months.tmod 12
  let parts :=
    (if years = 0 then [] else [counted years "year"])
      ++ (if months = 0 then [] else [counted months "month"])
      ++ (if days = 0 then [] else [counted days "day"])
      ++ (if micros = 0 then []
        else [(if micros < 0 then "-" else "")
          ++ Calendar.showTime .microsecond micros.natAbs])
  if parts.isEmpty then "00:00:00" else " ".intercalate parts

mutual

def shown : Cell → String
  | .null => "NULL"
  | .boolean b => toString b
  | .integer _ n => toString n
  | .float bits => showFloat .single bits
  | .double bits => showFloat .double bits
  | .decimal _ scale unscaled => showDecimal scale unscaled
  | .text s => s
  | .blob bytes => showBytes bytes
  | .date days => Calendar.showDate days
  | .time micros => Calendar.showTime .microsecond micros.toNat
  | .timestamp u n => Calendar.showInstant u n
  | .interval months days micros => showInterval months days micros
  | .enum label => label
  | .list cells => Cell.bracketed (shownAll cells)
  | .array cells => Cell.bracketed (shownAll cells)
  | .struct fields => "\x7b" ++ ", ".intercalate (shownFields fields) ++ "\x7d"
  | .map entries => "\x7b" ++ ", ".intercalate (shownEntries entries) ++ "\x7d"
  | .union cell => shown cell

def shownAll : List Cell → List String
  | [] => []
  | c :: cs => shown c :: shownAll cs

def shownFields : List (String × Cell) → List String
  | [] => []
  | (name, c) :: fields =>
    ("'" ++ name ++ "': " ++ shown c) :: shownFields fields

def shownEntries : List (Cell × Cell) → List String
  | [] => []
  | (key, c) :: entries => (shown key ++ "=" ++ shown c) :: shownEntries entries

end

def ofRatio? (away : Bool) (num : Int) (den : Nat) : DataType → Option Cell
  | .boolean => some (.boolean (num != 0))
  | .integer t =>
    integer? t (if away then roundAway num den else roundEven num den)
  | .float => some (.float (nearest .single num den))
  | .double => some (.double (nearest .double num den))
  | .decimal width scale =>
    decimal? width scale (roundAway (num * Int.pow 10 scale) den)
  | _ => none

/-- A floating-point number that is infinite or undefined, as one of another
type. -/
def ofSpecial? (f : Format) (bits : Nat) : DataType → Option Cell
  | .boolean => some (.boolean true)
  | .float => some (.float (moved .single))
  | .double => some (.double (moved .double))
  | _ => none
where
  moved (g : Format) : Nat :=
    match f.decode bits with
    | .infinite negative => Nearest.infinity g negative
    | _ => Nearest.infinity g false + Nat.pow 2 (g.fractionBits - 1)

/-- A cell as one of a type, if it denotes one of its values. Nothing and the
absence of a value can be cast to every type. -/
def cast? (t : DataType) (c : Cell) : Option Cell :=
  match c, t with
  | .null, _ => some .null
  | .text s, t => ofText? t s
  | .enum label, .enum labels =>
    if labels.contains label then some (.enum label) else none
  | c, .varchar => some (.text (shown c))
  | .float bits, .float => some (.float bits)
  | .double bits, .double => some (.double bits)
  | .float bits, t =>
    match ratioOf? .single bits with
    | some (num, den) => ofRatio? false num den t
    | none => ofSpecial? .single bits t
  | .double bits, t =>
    match ratioOf? .double bits with
    | some (num, den) => ofRatio? false num den t
    | none => ofSpecial? .double bits t
  | .date days, .date => some (.date days)
  | .date days, .timestamp u => some (.timestamp u (days * 86400 * u.perSecond))
  | .timestamp u n, .timestamp v => some (.timestamp v (Calendar.convert u v n))
  | .timestamp u n, .date => some (.date (n.fdiv (86400 * u.perSecond)))
  | .timestamp u n, .time =>
    let micros := Calendar.convert u .microsecond n
    some (.time (micros - micros.fdiv 86400000000 * 86400000000))
  | .time micros, .time => some (.time micros)
  | .interval months days micros, .interval => some (.interval months days micros)
  | .blob bytes, .blob => some (.blob bytes)
  | .list cells, .list _ => some (.list cells)
  | .array cells, .array _ _ => some (.array cells)
  | .array cells, .list _ => some (.list cells)
  | .list cells, .array _ size =>
    if cells.length = size then some (.array cells) else none
  | .struct fields, .struct _ => some (.struct fields)
  | .map entries, .map _ _ => some (.map entries)
  | .union cell, .union _ => some (.union cell)
  | c, t => (c.ratio?).bind fun (num, den) => ofRatio? true num den t

end Cast

end SchemaLedger.Engine
