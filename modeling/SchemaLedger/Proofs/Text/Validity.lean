import Mathlib.Data.List.TakeWhile
import SchemaLedger.Proofs.Text.Encoding
/-!
# Bytes that are text

Bytes are text if they are the bytes of one. UTF-8 synchronises itself: an ASCII byte
is a character wherever it stands, never a part of a longer one, so cutting at such a
byte cuts a text between its characters (`exists_of_flatMap_eq_append_cons`). Bytes are
therefore text if and only if what stands between the bytes of some ASCII character
is, `isText_iff_forall_splitOn`, and taking ASCII blanks off the ends makes no
difference, `isText_trim_iff`.
-/

namespace SchemaLedger

namespace Text

variable {α : Type} {p : α → Bool}

theorem trimEnd_append_of_forall {t : List α} (ht : ∀ a ∈ t, p a = true)
    (s : List α) : trimEnd p (s ++ t) = trimEnd p s := by
  rw [trimEnd, List.reverse_append,
    List.dropWhile_append_of_pos fun a ha => ht a (List.mem_reverse.1 ha)]
  rfl

theorem trim_append_append_of_forall {r t : List α} (hr : ∀ a ∈ r, p a = true)
    (ht : ∀ a ∈ t, p a = true) (s : List α) : trim p (r ++ s ++ t) = trim p s := by
  rw [List.append_assoc, trim, List.dropWhile_append_of_pos hr, List.dropWhile_append]
  split
  · next h =>
      rw [List.isEmpty_iff] at h
      rw [trim, h, List.dropWhile_eq_nil_iff.2 ht]
  · exact trimEnd_append_of_forall ht _

end Text

namespace Utf8

/-- Some text has these bytes. -/
def IsText (bytes : List UInt8) : Prop :=
  ∃ s : String, encode s = bytes

theorem isText_iff_exists_chars {bytes : List UInt8} :
    IsText bytes ↔ ∃ chars : List Char, chars.flatMap String.utf8EncodeChar = bytes := by
  constructor
  · rintro ⟨s, rfl⟩
    exact ⟨s.toList, (encode_eq_flatMap s).symm⟩
  · rintro ⟨chars, rfl⟩
    exact ⟨String.ofList chars, by rw [encode_eq_flatMap, String.toList_ofList]⟩

theorem isText_encode (s : String) : IsText (encode s) :=
  ⟨s, rfl⟩

theorem decode?_encode (s : String) : decode? (encode s) = some s := by
  have hbytes : (⟨(encode s).toArray⟩ : ByteArray) = s.toByteArray := by
    rw [encode, String.toUTF8_eq_toByteArray, Array.toArray_toList]
  rw [decode?, hbytes, String.fromUTF8?, dif_pos s.isValidUTF8]
  rfl

theorem decode?_eq_none_iff {bytes : List UInt8} :
    decode? bytes = none ↔ ¬ IsText bytes := by
  refine ⟨?_, fun h => ?_⟩
  · rintro hnone ⟨s, rfl⟩
    rw [decode?_encode] at hnone
    cases hnone
  · rw [decode?, String.fromUTF8?, dif_neg]
    rintro ⟨chars, hchars⟩
    refine h (isText_iff_exists_chars.2 ⟨chars, ?_⟩)
    have hlist := congrArg (fun b : ByteArray => b.data.toList) hchars
    simpa [List.utf8Encode] using hlist.symm

theorem eq_of_encodeChar_eq {c : Char} {front back : List UInt8} {b : UInt8}
    (hb : b.toNat < 0x80) (h : String.utf8EncodeChar c = front ++ b :: back) :
    c = Char.ofNat b.toNat ∧ front = [] ∧ back = [] := by
  have hc : c.toNat < 0x80 := by
    refine Nat.lt_of_not_le fun hle => ?_
    have := le_of_mem_encodeChar (b := b) hle (by rw [h]; simp)
    omega
  rw [encodeChar_of_lt hc] at h
  obtain ⟨rfl, hlist⟩ : front = [] ∧ [UInt8.ofNat c.toNat] = b :: back := by
    cases front with
    | nil => exact ⟨rfl, h⟩
    | cons d front => simp at h
  obtain ⟨rfl, rfl⟩ : UInt8.ofNat c.toNat = b ∧ [] = back := by simpa using hlist
  refine ⟨?_, rfl, rfl⟩
  rw [UInt8.toNat_ofNat', Nat.mod_eq_of_lt (by omega), Char.ofNat_toNat]

theorem exists_of_flatMap_eq_append_cons {chars : List Char} {front back : List UInt8}
    {b : UInt8} (hb : b.toNat < 0x80)
    (h : chars.flatMap String.utf8EncodeChar = front ++ b :: back) :
    ∃ cs ds, chars = cs ++ Char.ofNat b.toNat :: ds ∧
      cs.flatMap String.utf8EncodeChar = front ∧
      ds.flatMap String.utf8EncodeChar = back := by
  induction chars generalizing front with
  | nil => simp at h
  | cons c chars ih =>
      rw [List.flatMap_cons] at h
      have hlater : ∀ rest, front = String.utf8EncodeChar c ++ rest →
          chars.flatMap String.utf8EncodeChar = rest ++ b :: back →
          ∃ cs ds, c :: chars = cs ++ Char.ofNat b.toNat :: ds ∧
            cs.flatMap String.utf8EncodeChar = front ∧
            ds.flatMap String.utf8EncodeChar = back := by
        intro rest hfront hrest
        obtain ⟨cs, ds, rfl, hcs, hds⟩ := ih hrest
        exact ⟨c :: cs, ds, rfl, by rw [List.flatMap_cons, hcs, hfront], hds⟩
      rcases List.append_eq_append_iff.1 h with
        ⟨rest, hfront, hrest⟩ | ⟨rest, hc, hrest⟩
      · exact hlater rest hfront hrest
      · cases rest with
        | nil => exact hlater [] (by simpa using hc.symm) hrest.symm
        | cons d rest =>
            obtain ⟨rfl, hback⟩ : b = d ∧
                back = rest ++ chars.flatMap String.utf8EncodeChar := by
              simpa using hrest
            obtain ⟨rfl, rfl, rfl⟩ := eq_of_encodeChar_eq hb hc
            exact ⟨[], chars, rfl, rfl, hback.symm⟩

theorem encodeChar_ofNat {b : UInt8} (hb : b.toNat < 0x80) :
    String.utf8EncodeChar (Char.ofNat b.toNat) = [b] := by
  have hall : ∀ n < 0x80, (Char.ofNat n).toNat = n := by decide
  have hchar := hall b.toNat hb
  rw [encodeChar_of_lt (by omega), hchar, UInt8.ofNat_toNat]

/-- An ASCII byte separates texts. -/
theorem isText_append_cons_iff {front back : List UInt8} {b : UInt8}
    (hb : b.toNat < 0x80) :
    IsText (front ++ b :: back) ↔ IsText front ∧ IsText back := by
  simp only [isText_iff_exists_chars]
  constructor
  · rintro ⟨chars, h⟩
    obtain ⟨cs, ds, -, hcs, hds⟩ := exists_of_flatMap_eq_append_cons hb h
    exact ⟨⟨cs, hcs⟩, ⟨ds, hds⟩⟩
  · rintro ⟨⟨cs, rfl⟩, ⟨ds, rfl⟩⟩
    refine ⟨cs ++ Char.ofNat b.toNat :: ds, ?_⟩
    rw [List.flatMap_append, List.flatMap_cons, encodeChar_ofNat hb,
      List.singleton_append]

theorem isText_nil : IsText [] :=
  ⟨"", rfl⟩

/-- Bytes are text if and only if everything between the bytes of some ASCII character
is. -/
theorem isText_iff_forall_splitOn {b : UInt8} (hb : b.toNat < 0x80)
    (bytes : List UInt8) :
    IsText bytes ↔ ∀ piece ∈ bytes.splitOn b, IsText piece := by
  induction hn : bytes.length using Nat.strongRecOn generalizing bytes with
  | ind n ih =>
      subst hn
      by_cases hmem : b ∈ bytes
      · obtain ⟨front, back, rfl⟩ := List.append_of_mem hmem
        rw [isText_append_cons_iff hb, List.splitOn_append_cons_self,
          List.forall_mem_append, ← ih _ (by simp) front rfl,
          ← ih _ (by simp; omega) back rfl]
      · rw [List.splitOn_eq_singleton hmem, List.forall_mem_singleton]

def asciiChars (bytes : List UInt8) : List Char :=
  bytes.map fun b => Char.ofNat b.toNat

theorem flatMap_asciiChars {bytes : List UInt8} (h : ∀ b ∈ bytes, b.toNat < 0x80) :
    (asciiChars bytes).flatMap String.utf8EncodeChar = bytes := by
  induction bytes with
  | nil => rfl
  | cons b bytes ih =>
      obtain ⟨hb, hbytes⟩ := List.forall_mem_cons.1 h
      rw [asciiChars, List.map_cons, List.flatMap_cons, encodeChar_ofNat hb,
        ← asciiChars, ih hbytes, List.singleton_append]

theorem exists_of_flatMap_eq_append {chars : List Char} {front back : List UInt8}
    (hfront : ∀ b ∈ front, b.toNat < 0x80)
    (h : chars.flatMap String.utf8EncodeChar = front ++ back) :
    ∃ ds, chars = asciiChars front ++ ds ∧
      ds.flatMap String.utf8EncodeChar = back := by
  induction front generalizing chars with
  | nil => exact ⟨chars, rfl, h⟩
  | cons b front ih =>
      obtain ⟨hb, hfront⟩ := List.forall_mem_cons.1 hfront
      have h : chars.flatMap String.utf8EncodeChar = [] ++ b :: (front ++ back) := h
      obtain ⟨cs, ds, rfl, hcs, hds⟩ := exists_of_flatMap_eq_append_cons hb h
      obtain ⟨es, rfl, hes⟩ := ih hfront hds
      have hnil : cs = [] := by
        cases cs with
        | nil => rfl
        | cons c cs => simp at hcs
      exact ⟨es, by rw [hnil]; rfl, hes⟩

theorem exists_of_flatMap_eq_append_right {chars : List Char}
    {front back : List UInt8} (hback : ∀ b ∈ back, b.toNat < 0x80)
    (h : chars.flatMap String.utf8EncodeChar = front ++ back) :
    ∃ cs, chars = cs ++ asciiChars back ∧
      cs.flatMap String.utf8EncodeChar = front := by
  cases back with
  | nil => exact ⟨chars, (List.append_nil chars).symm, by rw [h, List.append_nil]⟩
  | cons b back =>
      obtain ⟨hb, hback⟩ := List.forall_mem_cons.1 hback
      obtain ⟨cs, ds, rfl, hcs, hds⟩ := exists_of_flatMap_eq_append_cons hb h
      rw [← List.append_nil back] at hds
      obtain ⟨es, rfl, hes⟩ := exists_of_flatMap_eq_append hback hds
      have hnil : es = [] := by
        cases es with
        | nil => rfl
        | cons c es => simp at hes
      exact ⟨cs, by rw [hnil, List.append_nil]; rfl, hcs⟩

theorem lt_of_isBlank {b : UInt8} (h : Ascii.isBlank b = true) : b.toNat < 0x80 := by
  simp only [Ascii.isBlank, Bool.or_eq_true, beq_iff_eq] at h
  rcases h with (((rfl | rfl) | rfl) | rfl) | rfl <;> decide

theorem isBlank_of_mem_asciiChars {bytes : List UInt8}
    (h : ∀ b ∈ bytes, Ascii.isBlank b = true) :
    ∀ c ∈ asciiChars bytes, Blank.isBlank c = true := by
  intro c hc
  obtain ⟨b, hb, rfl⟩ := List.mem_map.1 hc
  refine isBlank_of_mem_encodeChar ?_ (h b hb)
  rw [encodeChar_ofNat (lt_of_isBlank (h b hb))]
  exact List.mem_singleton_self b

/-- A text with ASCII blanks taken off its ends is a text, and the same one but for
blanks. -/
theorem exists_of_trim (s : String) :
    ∃ t, encode t = Ascii.trim (encode s) ∧ Blank.trim t = Blank.trim s := by
  obtain ⟨r, t, hs, hr, ht⟩ := Text.exists_append_trim_append Ascii.isBlank (encode s)
  have hs : s.toList.flatMap String.utf8EncodeChar =
      r ++ (Text.trim Ascii.isBlank (encode s) ++ t) := by
    rw [← encode_eq_flatMap, ← List.append_assoc]
    exact hs
  obtain ⟨ds, hds, hrest⟩ :=
    exists_of_flatMap_eq_append (fun b hb => lt_of_isBlank (hr b hb)) hs
  obtain ⟨cs, hcs, hmiddle⟩ :=
    exists_of_flatMap_eq_append_right (fun b hb => lt_of_isBlank (ht b hb)) hrest
  refine ⟨String.ofList cs, ?_, ?_⟩
  · rw [encode_eq_flatMap, String.toList_ofList]
    exact hmiddle
  · rw [Blank.trim, Blank.trim, hds, hcs, ← List.append_assoc, String.toList_ofList,
      Text.trim_append_append_of_forall (isBlank_of_mem_asciiChars hr)
        (isBlank_of_mem_asciiChars ht)]

/-- Taking ASCII blanks off the ends neither spoils a text nor makes one. -/
theorem isText_trim_iff {bytes : List UInt8} :
    IsText (Ascii.trim bytes) ↔ IsText bytes := by
  constructor
  · obtain ⟨r, t, hs, hr, ht⟩ := Text.exists_append_trim_append Ascii.isBlank bytes
    intro h
    obtain ⟨chars, hchars⟩ := isText_iff_exists_chars.1 h
    refine isText_iff_exists_chars.2 ⟨asciiChars r ++ chars ++ asciiChars t, ?_⟩
    rw [List.flatMap_append, List.flatMap_append, hchars,
      flatMap_asciiChars fun b hb => lt_of_isBlank (hr b hb),
      flatMap_asciiChars fun b hb => lt_of_isBlank (ht b hb)]
    exact hs.symm
  · rintro ⟨s, rfl⟩
    obtain ⟨t, ht, -⟩ := exists_of_trim s
    exact ⟨t, ht⟩

end Utf8

end SchemaLedger
