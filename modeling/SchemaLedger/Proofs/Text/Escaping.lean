import SchemaLedger.Proofs.Text.Encoding
import SchemaLedger.Text.Percent
/-!
# Escapes

What percent encoding writes of a character is the character itself or the escapes of
its bytes, of three characters each. So a text is left as it is if and only if each of
its characters is (`encode_eq_self_iff`). An escape that is read is the byte that was
written (`decode_escape`).
-/

namespace SchemaLedger.Percent

/-- What a hexadecimal digit is: ASCII, no sign, and read back. -/
theorem hexDigit_spec : ∀ n < 16,
    (hexDigit n).toNat < 0x80 ∧ (hexDigit n).isAlphanum = true ∧
      hexValue? (UInt8.ofNat (hexDigit n).toNat) = some (UInt8.ofNat n) := by
  decide

theorem eq_percent_or_isAlphanum {b : UInt8} {c : Char} (h : c ∈ escape b) :
    c = '%' ∨ c.isAlphanum = true := by
  have hb := b.toNat_lt
  simp only [escape, List.mem_cons, List.not_mem_nil, or_false] at h
  rcases h with rfl | rfl | rfl
  · exact Or.inl rfl
  · exact Or.inr (hexDigit_spec _ (by omega)).2.1
  · exact Or.inr (hexDigit_spec _ (by omega)).2.1

/-! ## Writing -/

section Encode

variable (keep : Char → Bool)

theorem encodeChar_cases (c : Char) :
    (c.toNat < 0x80 ∧ keep c = true) ∧ encodeChar keep c = [c] ∨
    ¬ (c.toNat < 0x80 ∧ keep c = true) ∧
      encodeChar keep c = (String.utf8EncodeChar c).flatMap escape := by
  by_cases h : c.toNat < 0x80 ∧ keep c = true
  · exact Or.inl ⟨h, if_pos (by simpa using h)⟩
  · exact Or.inr ⟨h, if_neg (by simpa using h)⟩

theorem encode_cons (c : Char) (s : List Char) :
    encode keep (c :: s) = encodeChar keep c ++ encode keep s :=
  List.flatMap_cons

theorem one_lt_length_escapes (c : Char) :
    1 < ((String.utf8EncodeChar c).flatMap escape).length := by
  cases hbytes : String.utf8EncodeChar c with
  | nil => exact absurd hbytes (Utf8.encodeChar_ne_nil c)
  | cons b bytes =>
      rw [List.flatMap_cons, List.length_append]
      exact Nat.lt_of_lt_of_le (by decide : 1 < 3) (Nat.le_add_right 3 _)

theorem length_le_length_encode (s : List Char) :
    s.length ≤ (encode keep s).length := by
  induction s with
  | nil => exact Nat.le_refl _
  | cons c s ih =>
      rw [encode_cons, List.length_append, List.length_cons]
      rcases encodeChar_cases keep c with ⟨-, hc⟩ | ⟨-, hc⟩
      · rw [hc, List.length_singleton]
        omega
      · have := one_lt_length_escapes c
        rw [hc]
        omega

variable {keep}

/-- A text is written as it is if and only if each of its characters is. -/
theorem encode_eq_self_iff {s : List Char} :
    encode keep s = s ↔ ∀ c ∈ s, c.toNat < 0x80 ∧ keep c = true := by
  induction s with
  | nil => simp
  | cons c s ih =>
      rw [List.forall_mem_cons, ← ih, encode_cons]
      rcases encodeChar_cases keep c with ⟨hkeep, hc⟩ | ⟨hkeep, hc⟩
      · simp [hc, hkeep]
      · refine iff_of_false (fun h => ?_) fun h => hkeep h.1
        -- An escape is longer than the character, and nothing gets shorter.
        have hlonger := one_lt_length_escapes c
        have hrest := length_le_length_encode keep s
        have hlength := congrArg List.length h
        rw [hc, List.length_append, List.length_cons] at hlength
        omega

/-- Characters that are written stood there and are kept, or belong to an escape. -/
theorem kept_or_of_mem_encode {s : List Char} {d : Char} (h : d ∈ encode keep s) :
    (d ∈ s ∧ keep d = true) ∨ d = '%' ∨ d.isAlphanum = true := by
  obtain ⟨c, hc, hd⟩ := List.mem_flatMap.1 h
  rcases encodeChar_cases keep c with ⟨⟨-, hkeep⟩, hone⟩ | ⟨-, hescapes⟩
  · rw [hone, List.mem_singleton] at hd
    exact Or.inl ⟨hd ▸ hc, hd ▸ hkeep⟩
  · rw [hescapes] at hd
    obtain ⟨b, -, hd⟩ := List.mem_flatMap.1 hd
    exact Or.inr (eq_percent_or_isAlphanum hd)

theorem mem_or_of_mem_encode {s : List Char} {d : Char} (h : d ∈ encode keep s) :
    d ∈ s ∨ d = '%' ∨ d.isAlphanum = true :=
  (kept_or_of_mem_encode h).imp_left And.left

end Encode

/-! ## Reading -/

theorem decode_cons_of_ne {b : UInt8} (h : b ≠ 0x25) (rest : List UInt8) :
    decode (b :: rest) = b :: decode rest := by
  rw [decode]
  rintro _ _ _ rfl
  exact absurd rfl h

theorem encode_escape (b : UInt8) :
    (escape b).flatMap String.utf8EncodeChar =
      [0x25, UInt8.ofNat (hexDigit (b.toNat / 16)).toNat,
        UInt8.ofNat (hexDigit (b.toNat % 16)).toNat] := by
  have hb := b.toNat_lt
  have hhigh := (hexDigit_spec (b.toNat / 16) (by omega)).1
  have hlow := (hexDigit_spec (b.toNat % 16) (by omega)).1
  rw [escape, List.flatMap_cons, List.flatMap_cons, List.flatMap_singleton,
    Utf8.encodeChar_of_lt hhigh, Utf8.encodeChar_of_lt hlow,
    Utf8.encodeChar_of_lt (by decide)]
  rfl

theorem decode_escape (b : UInt8) (rest : List UInt8) :
    decode ((escape b).flatMap String.utf8EncodeChar ++ rest) =
      b :: decode rest := by
  have hb := b.toNat_lt
  rw [encode_escape, List.cons_append, List.cons_append, List.cons_append,
    List.nil_append, decode, (hexDigit_spec _ (by omega)).2.2,
    (hexDigit_spec _ (by omega)).2.2]
  simp only
  congr 1
  have hsixteen : (16 : UInt8).toNat = 16 := rfl
  rw [← UInt8.toNat_inj, UInt8.toNat_add, UInt8.toNat_mul, UInt8.toNat_ofNat',
    UInt8.toNat_ofNat', hsixteen]
  omega

end SchemaLedger.Percent
