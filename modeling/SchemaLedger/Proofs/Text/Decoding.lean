import Mathlib.Tactic.SplitIfs
import SchemaLedger.Proofs.Text.Encoding
/-!
# Decoding what was encoded

Lenient decoding is for bytes that may be no text. On the bytes of a text it gives
that text, `lenient_encode`, since the bytes of each character are read back with
the rest of the bytes left over.
-/

namespace SchemaLedger.Utf8

open ByteRange (continuation)

theorem covers_iff (r : ByteRange) (b : UInt8) :
    r.covers b = true ↔ r.low.toNat ≤ b.toNat ∧ b.toNat ≤ r.high.toNat := by
  rw [ByteRange.covers, Bool.and_eq_true, decide_eq_true_eq, decide_eq_true_eq,
    UInt8.le_iff_toNat_le, UInt8.le_iff_toNat_le]

def secondOfThree (lead : Nat) : ByteRange :=
  if lead = 0xE0 then ⟨0xA0, 0xBF⟩
  else if lead = 0xED then ⟨0x80, 0x9F⟩
  else continuation

def secondOfFour (lead : Nat) : ByteRange :=
  if lead = 0xF0 then ⟨0x90, 0xBF⟩
  else if lead = 0xF4 then ⟨0x80, 0x8F⟩
  else continuation

section Following

variable {b : UInt8}

theorem following?_one (h : b.toNat < 0x80) : following? b = some [] := by
  rw [following?, if_pos (UInt8.lt_iff_toNat_lt.2 h)]

theorem following?_two (hlow : 0xC2 ≤ b.toNat) (hhigh : b.toNat < 0xE0) :
    following? b = some [continuation] := by
  simp only [following?, UInt8.lt_iff_toNat_lt, UInt8.toNat_ofNat, beq_iff_eq,
    ← UInt8.toNat_inj]
  split_ifs <;> first | rfl | omega

theorem following?_three (hlow : 0xE0 ≤ b.toNat) (hhigh : b.toNat < 0xF0) :
    following? b = some [secondOfThree b.toNat, continuation] := by
  simp only [following?, secondOfThree, UInt8.lt_iff_toNat_lt, UInt8.toNat_ofNat,
    beq_iff_eq, ← UInt8.toNat_inj]
  split_ifs <;> first | rfl | omega

theorem following?_four (hlow : 0xF0 ≤ b.toNat) (hhigh : b.toNat < 0xF5) :
    following? b = some [secondOfFour b.toNat, continuation, continuation] := by
  simp only [following?, secondOfFour, UInt8.lt_iff_toNat_lt, UInt8.toNat_ofNat,
    beq_iff_eq, ← UInt8.toNat_inj]
  split_ifs <;> first | rfl | omega

end Following

theorem readTail_cons {r : ByteRange} {b : UInt8} (h : r.covers b = true)
    (code : Nat) (ranges : List ByteRange) (rest : List UInt8) :
    readTail code (r :: ranges) (b :: rest) =
      readTail (code * 0x40 + b.toNat % 0x40) ranges rest := by
  rw [readTail, if_pos h]

theorem decodeLenient_cons {b : UInt8} {ranges : List ByteRange}
    {bytes rest : List UInt8} {c : Char} (hfollowing : following? b = some ranges)
    (htail : readTail (leadingBits b ranges.length) ranges (bytes ++ rest) =
      (some c.toNat, rest)) :
    decodeLenient (b :: bytes ++ rest) = c :: decodeLenient rest := by
  rw [List.cons_append, decodeLenient]
  simp only [hfollowing, htail, Option.map_some, Option.getD_some, Char.ofNat_toNat]

theorem toNat_ofNat_of_lt {n : Nat} (h : n < 0x100) : (UInt8.ofNat n).toNat = n := by
  rw [UInt8.toNat_ofNat']
  omega

/-- A byte made from six bits of a code point. -/
def continuing (n : Nat) : UInt8 :=
  UInt8.ofNat (n % 64 + 128)

theorem toNat_continuing (n : Nat) : (continuing n).toNat = n % 64 + 128 :=
  toNat_ofNat_of_lt (by omega)

theorem covers_continuing (n : Nat) : continuation.covers (continuing n) = true := by
  rw [covers_iff, toNat_continuing]
  exact ⟨Nat.le_add_left _ _, by change _ ≤ 0xBF; omega⟩

section Characters

variable {c : Char} (rest : List UInt8)

theorem decodeLenient_one (h : c.toNat < 0x80) :
    decodeLenient (UInt8.ofNat c.toNat :: rest) = c :: decodeLenient rest := by
  have hlead : (UInt8.ofNat c.toNat).toNat = c.toNat := toNat_ofNat_of_lt (by omega)
  change decodeLenient (UInt8.ofNat c.toNat :: [] ++ rest) = _
  refine decodeLenient_cons (following?_one (by omega)) ?_
  rw [readTail, List.length_nil, leadingBits, hlead, List.nil_append]

theorem decodeLenient_two (hlow : 0x80 ≤ c.toNat) (hhigh : c.toNat < 0x800) :
    decodeLenient ([UInt8.ofNat (c.toNat / 64 % 32 + 192), continuing c.toNat]
      ++ rest) = c :: decodeLenient rest := by
  generalize hv : c.toNat = v at hlow hhigh
  have hlead : (UInt8.ofNat (v / 64 % 32 + 192)).toNat = v / 64 % 32 + 192 :=
    toNat_ofNat_of_lt (by omega)
  refine decodeLenient_cons (following?_two (by omega) (by omega)) ?_
  rw [List.cons_append, readTail_cons (covers_continuing v), List.nil_append,
    readTail, toNat_continuing, hv]
  simp only [List.length_cons, List.length_nil, leadingBits, hlead]
  congr 2
  omega

/-- The second byte is restricted where a shorter form or a surrogate would be
written. -/
theorem covers_secondOfThree {v : Nat} (hlow : 0x800 ≤ v) (hhigh : v < 0x10000)
    (hvalid : v < 0xD800 ∨ 0xDFFF < v) :
    (secondOfThree (v / 4096 % 16 + 224)).covers (continuing (v / 64)) = true := by
  rw [covers_iff, toNat_continuing, secondOfThree]
  split_ifs
  · change 0xA0 ≤ _ ∧ _ ≤ 0xBF
    omega
  · change 0x80 ≤ _ ∧ _ ≤ 0x9F
    omega
  · change 0x80 ≤ _ ∧ _ ≤ 0xBF
    omega

theorem decodeLenient_three (hlow : 0x800 ≤ c.toNat) (hhigh : c.toNat < 0x10000)
    (hvalid : c.toNat < 0xD800 ∨ 0xDFFF < c.toNat) :
    decodeLenient ([UInt8.ofNat (c.toNat / 4096 % 16 + 224),
      continuing (c.toNat / 64), continuing c.toNat] ++ rest) =
      c :: decodeLenient rest := by
  have hsecond := covers_secondOfThree hlow hhigh hvalid
  generalize hv : c.toNat = v at hlow hhigh hsecond
  have hlead : (UInt8.ofNat (v / 4096 % 16 + 224)).toNat = v / 4096 % 16 + 224 :=
    toNat_ofNat_of_lt (by omega)
  refine decodeLenient_cons (following?_three (by omega) (by omega)) ?_
  rw [hlead, List.cons_append, readTail_cons hsecond, List.cons_append,
    readTail_cons (covers_continuing v), List.nil_append, readTail,
    toNat_continuing, toNat_continuing, hv]
  simp only [List.length_cons, List.length_nil, leadingBits, hlead]
  congr 2
  omega

/-- The second byte is restricted where a shorter form or a number above the last
code point would be written. -/
theorem covers_secondOfFour {v : Nat} (hlow : 0x10000 ≤ v) (hhigh : v < 0x110000) :
    (secondOfFour (v / 262144 % 8 + 240)).covers (continuing (v / 4096)) = true := by
  rw [covers_iff, toNat_continuing, secondOfFour]
  split_ifs
  · change 0x90 ≤ _ ∧ _ ≤ 0xBF
    omega
  · change 0x80 ≤ _ ∧ _ ≤ 0x8F
    omega
  · change 0x80 ≤ _ ∧ _ ≤ 0xBF
    omega

theorem decodeLenient_four (hlow : 0x10000 ≤ c.toNat) (hhigh : c.toNat < 0x110000) :
    decodeLenient ([UInt8.ofNat (c.toNat / 262144 % 8 + 240),
      continuing (c.toNat / 4096), continuing (c.toNat / 64),
      continuing c.toNat] ++ rest) = c :: decodeLenient rest := by
  have hsecond := covers_secondOfFour hlow hhigh
  generalize hv : c.toNat = v at hlow hhigh hsecond
  have hlead : (UInt8.ofNat (v / 262144 % 8 + 240)).toNat = v / 262144 % 8 + 240 :=
    toNat_ofNat_of_lt (by omega)
  refine decodeLenient_cons (following?_four (by omega) (by omega)) ?_
  rw [hlead, List.cons_append, readTail_cons hsecond, List.cons_append,
    readTail_cons (covers_continuing (v / 64)), List.cons_append,
    readTail_cons (covers_continuing v), List.nil_append, readTail,
    toNat_continuing, toNat_continuing, toNat_continuing, hv]
  simp only [List.length_cons, List.length_nil, leadingBits, hlead]
  congr 2
  omega

/-- The bytes of a character are read back, and no more. -/
theorem decodeLenient_encodeChar_append :
    decodeLenient (String.utf8EncodeChar c ++ rest) = c :: decodeLenient rest := by
  have hvalid : c.toNat < 0xD800 ∨ 0xDFFF < c.toNat ∧ c.toNat < 0x110000 := c.valid
  rw [String.utf8EncodeChar]
  simp only [show c.val.toNat = c.toNat from rfl]
  split_ifs with hone htwo hthree
  · exact decodeLenient_one rest (by omega)
  · exact decodeLenient_two rest (by omega) (by omega)
  · exact decodeLenient_three rest (by omega) (by omega) (by omega)
  · exact decodeLenient_four rest (by omega) (by omega)

end Characters

theorem lenient_encode (s : String) : lenient (encode s) = s := by
  have hchars : ∀ chars : List Char,
      decodeLenient (chars.flatMap String.utf8EncodeChar) = chars := by
    intro chars
    induction chars with
    | nil => rw [List.flatMap_nil, decodeLenient]
    | cons c chars ih =>
        rw [List.flatMap_cons, decodeLenient_encodeChar_append, ih]
  rw [lenient, encode_eq_flatMap, hchars, String.ofList_toList]

end SchemaLedger.Utf8
