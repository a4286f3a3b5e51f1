import SchemaLedger.Text.Decimal
/-!
# Texts with their lengths

A list of texts is kept in one text by writing in front of each how many
characters it has, so any text can be among them, and such lists can be written
one after the other.
-/

namespace SchemaLedger.Sized

def field (s : String) : List Char :=
  (toString s.length).toList ++ ':' :: s.toList ++ ['\n']

def write (texts : List String) : String :=
  String.ofList (texts.map field).flatten

def readField? (s : List Char) : Option (String × List Char) :=
  let digits := s.takeWhile Char.isDigit
  match s.drop digits.length with
  | ':' :: rest =>
    let size := SignedDecimal.ofDigits digits
    match rest.drop size with
    | '\n' :: rest' => some (String.ofList (rest.take size), rest')
    | _ => none
  | _ => none

def readWithin : Nat → List Char → Option (List String)
  | _, [] => some []
  | 0, _ => none
  | steps + 1, s => do
    let (text, rest) ← readField? s
    return text :: (← readWithin steps rest)

/-- The texts that have been written. Every step takes some characters. -/
def read? (s : List Char) : Option (List String) :=
  readWithin s.length s

end SchemaLedger.Sized
