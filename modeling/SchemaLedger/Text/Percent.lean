import SchemaLedger.Text.Utf8
/-!
# Percent encoding

A byte that may not stand for itself is written as a percent sign and two
hexadecimal digits. Which bytes stand for themselves is a parameter; decoding
does not depend on it, and leaves a percent sign that no two digits follow as
it is.
-/

namespace SchemaLedger.Percent

def hexDigit (n : Nat) : Char :=
  if n < 10 then Char.ofNat ('0'.toNat + n) else Char.ofNat ('A'.toNat + n - 10)

def hexValue? (b : UInt8) : Option UInt8 :=
  if 0x30 ≤ b && b ≤ 0x39 then some (b - 0x30)
  else if 0x41 ≤ b && b ≤ 0x46 then some (b - 0x37)
  else if 0x61 ≤ b && b ≤ 0x66 then some (b - 0x57)
  else none

def escape (b : UInt8) : List Char :=
  ['%', hexDigit (b.toNat / 16), hexDigit (b.toNat % 16)]

/-- A character written with the ASCII characters that satisfy `keep` as they
are and every other byte of it escaped. -/
def encodeChar (keep : Char → Bool) (c : Char) : List Char :=
  if c.toNat < 0x80 && keep c then [c]
  else (String.utf8EncodeChar c).flatMap escape

/-- A text with only the ASCII characters that satisfy `keep` as they are. -/
def encode (keep : Char → Bool) (s : List Char) : List Char :=
  s.flatMap (encodeChar keep)

@[simp] theorem encode_nil (keep : Char → Bool) : encode keep [] = [] := rfl

@[simp] theorem encode_append (keep : Char → Bool) (s t : List Char) :
    encode keep (s ++ t) = encode keep s ++ encode keep t :=
  List.flatMap_append

def decode : List UInt8 → List UInt8
  | [] => []
  | 0x25 :: h :: l :: rest =>
    match hexValue? h, hexValue? l with
    | some a, some b => (a * 16 + b) :: decode rest
    | _, _ => 0x25 :: decode (h :: l :: rest)
  | b :: rest => b :: decode rest

end SchemaLedger.Percent
