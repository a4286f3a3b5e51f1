/-!
# UTF-8

Strict decoding refuses bytes that are no text. Lenient decoding, for messages
that quote such bytes, puts one replacement character for each longest piece
that begins a character and is not finished, and for each byte that begins
none.
-/

namespace SchemaLedger.Utf8

def encode (s : String) : List UInt8 :=
  s.toUTF8.data.toList

def decode? (bytes : List UInt8) : Option String :=
  String.fromUTF8? ⟨bytes.toArray⟩

structure ByteRange where
  low : UInt8
  high : UInt8

namespace ByteRange

def continuation : ByteRange := ⟨0x80, 0xBF⟩

def covers (r : ByteRange) (b : UInt8) : Bool :=
  r.low ≤ b && b ≤ r.high

end ByteRange

open ByteRange (continuation)

/-- The ranges of the bytes that must follow a leading byte, one for each byte
still missing. The second byte is restricted where a longer form, a surrogate
or a number above the last code point would begin. -/
def following? (b : UInt8) : Option (List ByteRange) :=
  if b < 0x80 then some []
  else if b < 0xC2 then none
  else if b < 0xE0 then some [continuation]
  else if b == 0xE0 then some [⟨0xA0, 0xBF⟩, continuation]
  else if b == 0xED then some [⟨0x80, 0x9F⟩, continuation]
  else if b < 0xF0 then some [continuation, continuation]
  else if b == 0xF0 then some [⟨0x90, 0xBF⟩, continuation, continuation]
  else if b < 0xF4 then some [continuation, continuation, continuation]
  else if b == 0xF4 then some [⟨0x80, 0x8F⟩, continuation, continuation]
  else none

def leadingBits (b : UInt8) (n : Nat) : Nat :=
  match n with
  | 0 => b.toNat
  | 1 => b.toNat % 0x20
  | 2 => b.toNat % 0x10
  | _ => b.toNat % 0x08

/-- Read the missing bytes of a character into the code point gathered so far.
The outcome is the code point, or none when a byte is missing or out of
range, and the bytes that were not used. -/
def readTail : Nat → List ByteRange → List UInt8 → Option Nat × List UInt8
  | code, [], rest => (some code, rest)
  | _, _ :: _, [] => (none, [])
  | code, r :: ranges, b :: rest =>
    if r.covers b then
      readTail (code * 0x40 + b.toNat % 0x40) ranges rest
    else
      (none, b :: rest)

theorem length_readTail_le (code : Nat) (ranges : List ByteRange)
    (bytes : List UInt8) :
    (readTail code ranges bytes).2.length ≤ bytes.length := by
  fun_induction readTail code ranges bytes with
  | case1 => simp
  | case2 => simp
  | case3 code r ranges b rest _ ih => simp; omega
  | case4 => simp

def replacement : Char := '\uFFFD'

def decodeLenient : List UInt8 → List Char
  | [] => []
  | b :: rest =>
    match following? b with
    | none => replacement :: decodeLenient rest
    | some ranges =>
      let tail := readTail (leadingBits b ranges.length) ranges rest
      (tail.1.map Char.ofNat).getD replacement :: decodeLenient tail.2
termination_by bytes => bytes.length
decreasing_by
  · simp
  · have := length_readTail_le (leadingBits b ranges.length) ranges rest
    simp; omega

/-- Text for any bytes, ill-formed pieces replaced. -/
def lenient (bytes : List UInt8) : String :=
  String.ofList (decodeLenient bytes)

end SchemaLedger.Utf8
