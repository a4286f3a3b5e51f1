import SchemaLedger.Text.Integer
import SchemaLedger.Text.Shortest
/-!
# Decimals and the nearest binary number

A decimal is read exactly, and the binary number nearest to it is found in
exact arithmetic; of two equally near ones it is the one whose significand is
even.
-/

namespace SchemaLedger

/-- A decimal as it is written: a sign, and `digits * 10 ^ exponent`. -/
structure SignedDecimal where
  negative : Bool
  digits : Nat
  exponent : Int
  deriving DecidableEq, Repr

namespace SignedDecimal

def ofDigits (digits : List Char) : Nat :=
  digits.foldl (fun n c => n * 10 + (c.toNat - '0'.toNat)) 0

def readSign : List Char → Bool × List Char
  | '-' :: rest => (true, rest)
  | '+' :: rest => (false, rest)
  | rest => (false, rest)

def readExponent? : List Char → Option Int
  | [] => some 0
  | e :: rest =>
    if e == 'e' || e == 'E' then
      let (negative, digits) := readSign rest
      if digits.isEmpty || !digits.all Char.isDigit then none
      else some (if negative then -(ofDigits digits : Int) else ofDigits digits)
    else
      none

/-- Read a decimal: a sign, digits with a point among or beside them, and a
power of ten, of which only the digits are required. -/
def read? (text : List Char) : Option SignedDecimal := do
  let (negative, body) := readSign text
  let whole := body.takeWhile Char.isDigit
  let rest := body.drop whole.length
  let (fraction, rest) :=
    match rest with
    | '.' :: rest =>
      let fraction := rest.takeWhile Char.isDigit
      (fraction, rest.drop fraction.length)
    | rest => ([], rest)
  if whole.isEmpty && fraction.isEmpty then none
  else
    let power ← readExponent? rest
    some ⟨negative, ofDigits (whole ++ fraction), power - fraction.length⟩

end SignedDecimal

namespace Nearest

open Shortest (Format)

/-- The quotient of two numbers, rounded to the nearest whole number and half
way to the even one. -/
def quotient (num den : Nat) : Nat :=
  let q := num / den
  let r := num % den
  if den < 2 * r || (2 * r == den && q % 2 == 1) then q + 1 else q

def significand (num den : Nat) (exponent : Int) : Nat :=
  quotient (num * Nat.pow 2 (-exponent).toNat)
    (den * Nat.pow 2 exponent.toNat)

/-- The bits of `significand * 2 ^ exponent`, where the significand fills the
fraction unless the exponent is the least one. -/
def encode (f : Format) (negative : Bool) (significand : Nat)
    (exponent : Int) : Nat :=
  let implicit := Nat.pow 2 f.fractionBits
  let top := Nat.pow 2 f.exponentBits - 1
  let bias : Int := Int.pow 2 (f.exponentBits - 1) - 1 + f.fractionBits
  let biased := (exponent + bias).toNat
  let magnitude :=
    if significand < implicit then significand
    else if top ≤ biased then top * implicit
    else biased * implicit + (significand - implicit)
  (if negative then Nat.pow 2 (f.fractionBits + f.exponentBits) else 0)
    + magnitude

def ofRatio (f : Format) (negative : Bool) (num den : Nat) : Nat :=
  if num = 0 then encode f negative 0 0
  else
    let least : Int := 2 - Int.pow 2 (f.exponentBits - 1) - f.fractionBits
    let rough : Int := num.log2 - den.log2 - f.fractionBits
    let full (exponent : Int) : Bool :=
      decide (den * Nat.pow 2 (exponent + f.fractionBits).toNat
        ≤ num * Nat.pow 2 (-(exponent + f.fractionBits)).toNat)
    let exponent := max least (if full rough then rough else rough - 1)
    let m := significand num den exponent
    if m = Nat.pow 2 (f.fractionBits + 1) then
      encode f negative (m / 2) (exponent + 1)
    else
      encode f negative m exponent

/-- The bits of the number nearest to a decimal. Decimals beyond all binary
numbers are not multiplied out. -/
def ofDecimal (f : Format) (d : SignedDecimal) : Nat :=
  let size : Int := (Nat.toDigits 10 d.digits).length + d.exponent
  if d.digits = 0 || size < -400 then encode f d.negative 0 0
  else if 400 < size then
    encode f d.negative (Nat.pow 2 f.fractionBits) (Nat.pow 2 f.exponentBits)
  else
    ofRatio f d.negative (d.digits * Nat.pow 10 d.exponent.toNat)
      (Nat.pow 10 (-d.exponent).toNat)

def infinity (f : Format) (negative : Bool) : Nat :=
  encode f negative (Nat.pow 2 f.fractionBits) (Nat.pow 2 f.exponentBits)

def isFinite (f : Format) (bits : Nat) : Bool :=
  bits / Nat.pow 2 f.fractionBits % Nat.pow 2 f.exponentBits
    != Nat.pow 2 f.exponentBits - 1

example : ofDecimal .double ⟨false, 1, -1⟩ = 0x3FB999999999999A := by
  decide +kernel
example : ofDecimal .double ⟨true, 5, -324⟩ = 0x8000000000000001 := by
  decide +kernel
example : ofDecimal .double ⟨false, 18, 307⟩ = 0x7FF0000000000000 := by
  decide +kernel
example : ofDecimal .double ⟨false, 17976931348623157, 292⟩ =
    0x7FEFFFFFFFFFFFFF := by decide +kernel
example : ofDecimal .single ⟨false, 1, -1⟩ = 0x3DCCCCCD := by decide +kernel
example : ofDecimal .double ⟨false, 1, 0⟩ = 0x3FF0000000000000 := by
  decide +kernel

end Nearest

end SchemaLedger
