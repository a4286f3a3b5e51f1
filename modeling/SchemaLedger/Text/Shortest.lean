/-!
# The shortest decimal of a binary number

A binary floating-point number stands for all reals that round to it. Its
shortest decimal is the one with the fewest digits among those reals, and of
two with equally few the one nearer to the number itself. The search runs in
exact arithmetic: for one, two, up to seventeen digits it looks at the two
neighbours of the number on the decimal grid with that many digits.
-/

namespace SchemaLedger.Shortest

/-- A binary interchange format: the width of its fraction and of its
exponent. -/
structure Format where
  fractionBits : Nat
  exponentBits : Nat

def Format.double : Format := ⟨52, 11⟩

def Format.single : Format := ⟨23, 8⟩

/-- What the bits of a number say. A finite number is
`significand * 2 ^ exponent`; it is on a `binadeEdge` when the number below it
is only half as far away as the number above it. -/
inductive Decoded where
  | nan
  | infinite (negative : Bool)
  | finite (negative : Bool) (significand : Nat) (exponent : Int)
      (binadeEdge : Bool)

def Format.decode (f : Format) (bits : Nat) : Decoded :=
  let fraction := bits % Nat.pow 2 f.fractionBits
  let biased := bits / Nat.pow 2 f.fractionBits % Nat.pow 2 f.exponentBits
  let negative := bits / Nat.pow 2 (f.fractionBits + f.exponentBits) % 2 == 1
  let bias : Int := Int.pow 2 (f.exponentBits - 1) - 1 + f.fractionBits
  if biased == Nat.pow 2 f.exponentBits - 1 then
    if fraction == 0 then .infinite negative else .nan
  else if biased == 0 then
    .finite negative fraction (1 - bias) false
  else
    .finite negative (Nat.pow 2 f.fractionBits + fraction) (biased - bias)
      (fraction == 0 && biased != 1)

structure Decimal where
  digits : Nat
  exponent : Int
  deriving DecidableEq, Repr

/-- The reals that round to one number, as numerators over the denominator
`scale`. The ends belong to it when `closed`. -/
structure Interval where
  low : Nat
  value : Nat
  high : Nat
  scale : Nat
  closed : Bool

def Interval.around (significand : Nat) (exponent : Int) (binadeEdge : Bool) :
    Interval :=
  let up := (exponent - 2).toNat
  let down := (2 - exponent).toNat
  { low := (4 * significand - (if binadeEdge then 1 else 2)) * Nat.pow 2 up
    value := 4 * significand * Nat.pow 2 up
    high := (4 * significand + 2) * Nat.pow 2 up
    scale := Nat.pow 2 down
    closed := significand % 2 == 0 }

/-- The least `k` with `value < 10 ^ k`, counted up from `k` while it is not
reached. -/
def magnitudeUp (value scale : Nat) : Nat → Nat → Nat
  | 0, k => k
  | fuel + 1, k =>
    if value < scale * Nat.pow 10 k then k
    else magnitudeUp value scale fuel (k + 1)

/-- The greatest `j` with `value * 10 ^ j < 1`, counted up from `j`. -/
def magnitudeDown (value scale : Nat) : Nat → Nat → Nat
  | 0, j => j
  | fuel + 1, j =>
    if value * Nat.pow 10 (j + 1) < scale then
      magnitudeDown value scale fuel (j + 1)
    else j

def Interval.magnitude (i : Interval) : Int :=
  if i.scale ≤ i.value then magnitudeUp i.value i.scale 400 0
  else - (magnitudeDown i.value i.scale 400 0 : Int)

/-- The decimal of the grid with step `10 ^ step` that lies in the interval
and is nearest to its value, the upper one of two equally near ones. -/
def Interval.onGrid? (i : Interval) (step : Int) : Option Nat :=
  let num := Nat.pow 10 (-step).toNat
  let den := i.scale * Nat.pow 10 step.toNat
  let below := i.value * num / den
  let within (d : Nat) : Bool :=
    if i.closed then i.low * num ≤ d * den && d * den ≤ i.high * num
    else i.low * num < d * den && d * den < i.high * num
  let upperNearer := decide ((2 * below + 1) * den ≤ 2 * (i.value * num))
  if within (below + 1) && (upperNearer || !within below) then some (below + 1)
  else if within below then some below
  else none

def Decimal.strip : Nat → Decimal → Decimal
  | 0, d => d
  | fuel + 1, d =>
    if d.digits != 0 && d.digits % 10 == 0 then
      strip fuel ⟨d.digits / 10, d.exponent + 1⟩
    else
      d

/-- The first grid with a hit, from `n` digits on. -/
def Interval.search (i : Interval) (magnitude : Int) : Nat → Nat → Decimal
  | 0, n => ⟨i.value / i.scale, (magnitude - n : Int)⟩
  | fuel + 1, n =>
    match i.onGrid? (magnitude - n) with
    | some d => Decimal.strip 20 ⟨d, magnitude - n⟩
    | none => search i magnitude fuel (n + 1)

def decimal (significand : Nat) (exponent : Int) (binadeEdge : Bool) : Decimal :=
  if significand == 0 then ⟨0, 0⟩
  else
    let i := Interval.around significand exponent binadeEdge
    i.search i.magnitude 17 1

def Decimal.positional (d : Decimal) : String :=
  let digits := Nat.toDigits 10 d.digits
  if 0 ≤ d.exponent then
    String.ofList (digits ++ List.replicate d.exponent.toNat '0')
  else
    let places := (-d.exponent).toNat
    let padded := List.replicate (places + 1 - digits.length) '0' ++ digits
    String.ofList (padded.take (padded.length - places) ++
      '.' :: padded.drop (padded.length - places))

def Decimal.scientific (d : Decimal) : String :=
  let digits := Nat.toDigits 10 d.digits
  let power := d.exponent + digits.length - 1
  String.ofList (digits.take 1)
    ++ (if digits.length ≤ 1 then "" else "." ++ String.ofList (digits.drop 1))
    ++ "e" ++ toString power

def sign (negative : Bool) : String :=
  if negative then "-" else ""

/-- The plain text of a number: never an exponent, and no point in a whole
number. -/
def plain (f : Format) (bits : Nat) : String :=
  match f.decode bits with
  | .nan => "NaN"
  | .infinite negative => sign negative ++ "inf"
  | .finite negative m e edge => sign negative ++ (decimal m e edge).positional

/-- The text of a number as a literal: a whole number keeps `.0`, and numbers
of 10 ^ 16 or more and numbers below 10 ^ -4 have an exponent. -/
def literal (f : Format) (bits : Nat) : String :=
  match f.decode bits with
  | .nan => "NaN"
  | .infinite negative => sign negative ++ "inf"
  | .finite negative m e edge =>
    let d := decimal m e edge
    let power := d.exponent + (Nat.toDigits 10 d.digits).length - 1
    sign negative ++
      if d.digits == 0 then "0.0"
      else if power < -4 || 16 ≤ power then d.scientific
      else if 0 ≤ d.exponent then d.positional ++ ".0"
      else d.positional

example : plain .double 0x3FB999999999999A = "0.1" := by decide +kernel
example : plain .double 0x3EB0C6F7A0B5ED8D = "0.000001" := by decide +kernel
example : plain .double 1 =
    "0." ++ String.ofList (List.replicate 323 '0') ++ "5" := by decide +kernel
example : literal .double 0x4341C37937E08000 = "1e16" := by decide +kernel
example : literal .single 0x3DCCCCCD = "0.1" := by decide +kernel

end SchemaLedger.Shortest
