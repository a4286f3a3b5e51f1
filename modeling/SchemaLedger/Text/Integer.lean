/-!
# Reading integers

A decimal integer is an optional sign and one or more digits. Reading goes
from left to right and stops at the first fault, so of a number that is both
too long and badly ended the fault met first is reported.
-/

namespace SchemaLedger

inductive IntegerFault where
  | empty
  | invalidDigit
  | tooLarge
  | tooSmall
  deriving DecidableEq, Repr

def IntegerFault.message : IntegerFault → String
  | .empty => "cannot parse integer from empty string"
  | .invalidDigit => "invalid digit found in string"
  | .tooLarge => "number too large to fit in target type"
  | .tooSmall => "number too small to fit in target type"

namespace Integer

def digit? (c : Char) : Option Nat :=
  if c.isDigit then some (c.toNat - '0'.toNat) else none

/-- Append digits to the number `n`, away from zero in the direction of
`sign`, leaving the range of 64-bit integers being `fault`. -/
def readDigits (sign : Int) (fault : IntegerFault) :
    Int → List Char → Except IntegerFault Int
  | n, [] => .ok n
  | n, c :: cs =>
    match digit? c with
    | none => .error .invalidDigit
    | some d =>
      let m := n * 10 + sign * d
      if -Int.pow 2 63 ≤ m ∧ m < Int.pow 2 63 then
        readDigits sign fault m cs
      else
        .error fault

@[simp] theorem readDigits_nil (sign : Int) (fault : IntegerFault) (n : Int) :
    readDigits sign fault n [] = .ok n := rfl

def read (s : String) : Except IntegerFault Int64 :=
  Int64.ofInt <$>
    match s.toList with
    | [] => .error .empty
    | ['+'] => .error .invalidDigit
    | ['-'] => .error .invalidDigit
    | '+' :: cs => readDigits 1 .tooLarge 0 cs
    | '-' :: cs => readDigits (-1) .tooSmall 0 cs
    | cs => readDigits 1 .tooLarge 0 cs

end Integer

end SchemaLedger
