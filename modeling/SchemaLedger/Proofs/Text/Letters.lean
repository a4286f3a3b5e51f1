/-!
# Letters and digits by their numbers

The tests of core for ASCII letters, as bounds on the code point, and what they say of
the lower-case form of a letter.
-/

namespace SchemaLedger.Text

variable {c : Char}

theorem val_le_val_iff {d : Char} : c.val ≤ d.val ↔ c.toNat ≤ d.toNat :=
  UInt32.le_iff_toNat_le

theorem within_iff (first last : Char) :
    (decide (first.val ≤ c.val) && decide (c.val ≤ last.val)) = true ↔
      first.toNat ≤ c.toNat ∧ c.toNat ≤ last.toNat := by
  rw [Bool.and_eq_true, decide_eq_true_iff, decide_eq_true_iff, val_le_val_iff,
    val_le_val_iff]

theorem isUpper_iff : c.isUpper = true ↔ 0x41 ≤ c.toNat ∧ c.toNat ≤ 0x5A :=
  decide_eq_true_iff.trans (and_congr val_le_val_iff val_le_val_iff)

theorem isLower_iff : c.isLower = true ↔ 0x61 ≤ c.toNat ∧ c.toNat ≤ 0x7A :=
  within_iff 'a' 'z'

theorem isDigit_iff : c.isDigit = true ↔ 0x30 ≤ c.toNat ∧ c.toNat ≤ 0x39 :=
  within_iff '0' '9'

theorem isAlpha_of_isLower (h : c.isLower = true) : c.isAlpha = true :=
  (Bool.or_eq_true _ _).mpr (.inr h)

theorem isAlphanum_iff : c.isAlphanum = true ↔
    ((0x41 ≤ c.toNat ∧ c.toNat ≤ 0x5A) ∨ (0x61 ≤ c.toNat ∧ c.toNat ≤ 0x7A)) ∨
      (0x30 ≤ c.toNat ∧ c.toNat ≤ 0x39) := by
  change ((c.isUpper || c.isLower) || c.isDigit) = true ↔ _
  rw [Bool.or_eq_true, Bool.or_eq_true, isUpper_iff, isLower_iff, isDigit_iff]

theorem toLower_of_not_isUpper (h : c.isUpper = false) : c.toLower = c :=
  dif_neg (of_decide_eq_false h)

theorem isLower_toLower_of_isUpper (h : c.isUpper = true) :
    c.toLower.isLower = true := by
  have hbounds := isUpper_iff.1 h
  have hvalue : c.toLower.toNat = c.toNat + 0x20 := by
    have hlower : c.toLower.val = c.val + ('a'.val - 'A'.val) :=
      congrArg Char.val (dif_pos (of_decide_eq_true h))
    rw [← Char.toNat_val, ← Char.toNat_val, hlower]
    have hshift : ('a'.val - 'A'.val).toNat = 0x20 := rfl
    have hsmall : c.val.toNat ≤ 0x5A := hbounds.2
    rw [UInt32.toNat_add, hshift]
    omega
  rw [isLower_iff, hvalue]
  omega

theorem toLower_toLower (c : Char) : c.toLower.toLower = c.toLower := by
  cases h : c.isUpper with
  | false => rw [toLower_of_not_isUpper h, toLower_of_not_isUpper h]
  | true =>
      have hlower := isLower_iff.1 (isLower_toLower_of_isUpper h)
      refine toLower_of_not_isUpper (Bool.eq_false_iff.2 fun hupper => ?_)
      have hbounds := isUpper_iff.1 hupper
      omega

/-- What holds of a character and of all small letters holds of its lower-case form. -/
theorem toLower_of_isLower {P : Char → Prop} (h : P c)
    (hlower : ∀ d : Char, d.isLower = true → P d) : P c.toLower := by
  cases hupper : c.isUpper with
  | false => rwa [toLower_of_not_isUpper hupper]
  | true => exact hlower _ (isLower_toLower_of_isUpper hupper)

end SchemaLedger.Text
