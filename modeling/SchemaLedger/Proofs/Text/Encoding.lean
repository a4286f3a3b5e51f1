import SchemaLedger.Proofs.Text.Trimming
import SchemaLedger.Script.Statement
import SchemaLedger.Text.Blank
/-!
# The bytes of a text

The rules for scripts look at bytes where the documentation speaks of
characters. UTF-8 lets them: a character below U+0080 is encoded as the byte of
the same number, and the bytes of every other character are at least 0x80. So an
ASCII blank or letter in the bytes of a text is one in the text.
-/

namespace SchemaLedger

namespace Utf8

theorem encode_eq_flatMap (s : String) :
    encode s = s.toList.flatMap String.utf8EncodeChar := by
  rw [encode, String.toUTF8_eq_toByteArray, ← String.utf8Encode_toList,
    List.utf8Encode, List.toList_data_toByteArray]

theorem encodeChar_of_lt {c : Char} (h : c.toNat < 0x80) :
    String.utf8EncodeChar c = [UInt8.ofNat c.toNat] := by
  rw [String.utf8EncodeChar]
  exact if_pos (Nat.le_of_lt_succ h)

theorem encodeChar_ne_nil (c : Char) : String.utf8EncodeChar c ≠ [] := by
  refine List.ne_nil_of_length_pos ?_
  rw [String.length_utf8EncodeChar]
  exact Char.utf8Size_pos c

theorem le_of_mem_encodeChar {c : Char} {b : UInt8} (h : 0x80 ≤ c.toNat)
    (hb : b ∈ String.utf8EncodeChar c) : 0x80 ≤ b.toNat := by
  have hv : c.val.toNat = c.toNat := rfl
  rw [String.utf8EncodeChar] at hb
  simp only [hv] at hb
  rw [if_neg (by omega)] at hb
  split at hb
  · simp only [List.mem_cons, List.not_mem_nil, or_false] at hb
    rcases hb with rfl | rfl <;> rw [UInt8.toNat_ofNat'] <;> omega
  · split at hb
    · simp only [List.mem_cons, List.not_mem_nil, or_false] at hb
      rcases hb with rfl | rfl | rfl <;> rw [UInt8.toNat_ofNat'] <;> omega
    · simp only [List.mem_cons, List.not_mem_nil, or_false] at hb
      rcases hb with rfl | rfl | rfl | rfl <;> rw [UInt8.toNat_ofNat'] <;> omega

theorem isBlank_of_mem_encodeChar {c : Char} {b : UInt8}
    (hb : b ∈ String.utf8EncodeChar c) (h : Ascii.isBlank b = true) :
    Blank.isBlank c = true := by
  simp only [Ascii.isBlank, Bool.or_eq_true, beq_iff_eq] at h
  have hlt : b.toNat < 0x80 := by
    rcases h with (((rfl | rfl) | rfl) | rfl) | rfl <;> decide
  by_cases hc : c.toNat < 0x80
  · rw [encodeChar_of_lt hc, List.mem_singleton] at hb
    have hnat : b.toNat = c.toNat := by
      rw [hb, UInt8.toNat_ofNat']
      omega
    have : c.toNat = 0x20 ∨ c.toNat = 0x09 ∨ c.toNat = 0x0A ∨ c.toNat = 0x0C ∨
        c.toNat = 0x0D := by
      rcases h with (((rfl | rfl) | rfl) | rfl) | rfl <;> simp [← hnat]
    simp only [Blank.isBlank, Blank.ranges, List.any_cons, Bool.or_eq_true,
      Bool.and_eq_true, decide_eq_true_eq]
    omega
  · have := le_of_mem_encodeChar (Nat.le_of_not_lt hc) hb
    omega

/-- A text without blanks at its ends has no ASCII blanks at the ends of its
bytes. -/
theorem trim_encode_trim (s : String) :
    Ascii.trim (encode (Blank.trim s)) = encode (Blank.trim s) := by
  rw [encode_eq_flatMap, Blank.trim, String.toList_ofList]
  refine Text.trim_eq_self (fun b hb => ?_) fun b hb => ?_
  · cases hl : Text.trim Blank.isBlank s.toList with
    | nil => simp [hl] at hb
    | cons c rest =>
        have hc : Blank.isBlank c = false :=
          Text.of_head?_trim (s := s.toList) (by rw [hl]; rfl)
        rw [hl, List.flatMap_cons, List.head?_append,
          Option.or_of_isSome (by simp [encodeChar_ne_nil c])] at hb
        refine Bool.eq_false_iff.2 fun hblank => ?_
        rw [isBlank_of_mem_encodeChar (List.mem_of_head? hb) hblank] at hc
        cases hc
  · rcases List.eq_nil_or_concat (Text.trim Blank.isBlank s.toList) with
      hl | ⟨front, c, hl⟩
    · simp [hl] at hb
    · have hc : Blank.isBlank c = false :=
        Text.of_getLast?_trim (s := s.toList) (by rw [hl]; simp)
      rw [hl, List.concat_eq_append, List.flatMap_append, List.flatMap_singleton,
        List.getLast?_append,
        Option.or_of_isSome (by simp [encodeChar_ne_nil c])] at hb
      refine Bool.eq_false_iff.2 fun hblank => ?_
      rw [isBlank_of_mem_encodeChar (List.mem_of_getLast? hb) hblank] at hc
      cases hc

end Utf8

namespace Ascii

theorem upper_ofNat {c : Char} (h : c.toNat < 0x80) :
    upper (UInt8.ofNat c.toNat) = UInt8.ofNat c.toUpper.toNat ∧
      c.toUpper.toNat < 0x80 := by
  have hall : ∀ n, n < 0x80 →
      upper (UInt8.ofNat (Char.ofNat n).toNat) =
          UInt8.ofNat (Char.ofNat n).toUpper.toNat ∧
        (Char.ofNat n).toUpper.toNat < 0x80 := by decide
  have := hall c.toNat h
  rwa [Char.ofNat_toNat] at this

/-- Bytes outside ASCII have no upper case, and neither have characters. -/
theorem upper_of_le {b : UInt8} (h : 0x80 ≤ b.toNat) : upper b = b := by
  rw [upper, if_neg]
  simp only [Bool.and_eq_true, decide_eq_true_eq, UInt8.le_iff_toNat_le]
  simp only [UInt8.toNat_ofNat]
  omega

theorem toUpper_of_le {c : Char} (h : 0x80 ≤ c.toNat) : c.toUpper = c := by
  refine dif_neg ?_
  rintro ⟨-, hz⟩
  have : c.toNat ≤ 'z'.toNat := UInt32.le_iff_toNat_le.1 hz
  have hz : 'z'.toNat = 122 := rfl
  omega

/-- A text begins with an upper-case word, whatever the case of its letters, if
its bytes do. -/
theorem startsWithWord_iff {word : List Char}
    (hword : ∀ c ∈ word, c.toNat < 0x80 ∧ c.toUpper = c) (s : List Char) :
    startsWithWord (word.flatMap String.utf8EncodeChar)
        (s.flatMap String.utf8EncodeChar) = true ↔
      word <+: s.map Char.toUpper := by
  induction word generalizing s with
  | nil => simp [startsWithWord]
  | cons w word ih =>
      obtain ⟨hw, hup⟩ := hword w List.mem_cons_self
      cases s with
      | nil => simp [startsWithWord, Utf8.encodeChar_of_lt hw]
      | cons c s =>
          have hrest := ih (fun d hd => hword d (List.mem_cons_of_mem w hd)) s
          rw [startsWithWord] at hrest
          rw [startsWithWord, List.flatMap_cons, List.flatMap_cons,
            Utf8.encodeChar_of_lt hw, List.map_cons, List.cons_prefix_cons]
          by_cases hc : c.toNat < 0x80
          · rw [Utf8.encodeChar_of_lt hc, List.singleton_append,
              List.singleton_append, List.map_cons, List.map_cons,
              List.isPrefixOf_cons_cons, Bool.and_eq_true, hrest, beq_iff_eq,
              (upper_ofNat hw).1, (upper_ofNat hc).1, hup]
            refine and_congr_left fun _ => ⟨fun h => ?_, fun h => by rw [h]⟩
            have hlt := (upper_ofNat hc).2
            have hnat := congrArg UInt8.toNat h
            rw [UInt8.toNat_ofNat', UInt8.toNat_ofNat'] at hnat
            exact Char.toNat_inj.1 (by omega)
          · -- A character outside ASCII is no letter of the word.
            have hc := Nat.le_of_not_lt hc
            obtain ⟨b, bs, hbs⟩ := List.exists_cons_of_ne_nil
              (Utf8.encodeChar_ne_nil c)
            have hb : 0x80 ≤ b.toNat :=
              Utf8.le_of_mem_encodeChar hc (hbs ▸ List.mem_cons_self)
            rw [hbs, List.singleton_append, List.cons_append, List.map_cons,
              List.map_cons, List.isPrefixOf_cons_cons, Bool.and_eq_true, beq_iff_eq,
              (upper_ofNat hw).1, hup, upper_of_le hb, toUpper_of_le hc]
            refine iff_of_false (fun h => ?_) fun h => ?_
            · have hnat := congrArg UInt8.toNat h.1
              rw [UInt8.toNat_ofNat'] at hnat
              omega
            · have := congrArg Char.toNat h.1
              omega

end Ascii

namespace StatementKind

def ofText (sql : String) : StatementKind :=
  if ∃ word ∈ ["CREATE", "ALTER", "DROP"],
      word.toList <+: sql.toList.map Char.toUpper then schema
  else data

theorem classify_encode_trim (s : String) :
    classify (Utf8.encode (Blank.trim s)) = ofText (Blank.trim s) := by
  have hletters : ∀ word ∈ ["CREATE", "ALTER", "DROP"],
      word.toList.all (fun c => c.toNat < 0x80 ∧ c.toUpper = c) = true := by
    decide
  have hstarts : ∀ word ∈ ["CREATE", "ALTER", "DROP"],
      (Ascii.startsWithWord (Utf8.encode word) (Utf8.encode (Blank.trim s)) =
          true ↔
        word.toList <+: (Blank.trim s).toList.map Char.toUpper) := by
    intro word hmem
    rw [Utf8.encode_eq_flatMap, Utf8.encode_eq_flatMap]
    refine Ascii.startsWithWord_iff (fun c hc => ?_) _
    exact of_decide_eq_true (List.all_eq_true.1 (hletters word hmem) c hc)
  rw [classify, Utf8.trim_encode_trim, ofText, schemaWords, List.any_map]
  refine ite_congr (propext ?_) (fun _ => rfl) fun _ => rfl
  rw [List.any_eq_true]
  exact exists_congr fun word => and_congr_right fun hmem => hstarts word hmem

end StatementKind

end SchemaLedger
