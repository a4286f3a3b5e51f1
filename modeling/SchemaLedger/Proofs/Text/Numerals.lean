import Mathlib.Data.Nat.Digits.Defs
import Mathlib.Tactic.Linarith
import Mathlib.Tactic.Ring
import SchemaLedger.Text.Integer
/-!
# Numerals

What a text denotes as an integer, said without a reader: decimal digits, perhaps
behind a sign, of any number. `read_eq_ok_iff` says that reading finds exactly the
64-bit integers that are denoted so. The reader looks at the range after each digit,
which is as good as at the end, since every further digit leads away from zero.
-/

namespace SchemaLedger.Integer

def value (digits : List Char) : Nat :=
  Nat.ofDigits 10 (digits.reverse.map fun c => c.toNat - '0'.toNat)

/-- One or more decimal digits denote a number, and with a sign in front of them an
integer. -/
inductive Denotes : List Char → Int → Prop
  | plain {digits : List Char} (hne : digits ≠ [])
      (hdigits : ∀ c ∈ digits, c.isDigit = true) : Denotes digits (value digits)
  | plus {digits : List Char} (hne : digits ≠ [])
      (hdigits : ∀ c ∈ digits, c.isDigit = true) :
      Denotes ('+' :: digits) (value digits)
  | minus {digits : List Char} (hne : digits ≠ [])
      (hdigits : ∀ c ∈ digits, c.isDigit = true) :
      Denotes ('-' :: digits) (-value digits)

@[simp] theorem value_nil : value [] = 0 := rfl

theorem value_cons (c : Char) (digits : List Char) :
    value (c :: digits) =
      (c.toNat - '0'.toNat) * 10 ^ digits.length + value digits := by
  rw [value, List.reverse_cons, List.map_append, Nat.ofDigits_append,
    List.map_singleton, Nat.ofDigits_singleton, List.length_map,
    List.length_reverse, ← value]
  ring

theorem digit?_of_isDigit {c : Char} (h : c.isDigit = true) :
    digit? c = some (c.toNat - '0'.toNat) :=
  if_pos h

theorem digit?_of_not_isDigit {c : Char} (h : c.isDigit = false) :
    digit? c = none :=
  if_neg (by rw [h]; nofun)

def InRange (n : Int) : Prop :=
  -2 ^ 63 ≤ n ∧ n < 2 ^ 63

theorem inRange_toInt (n : Int64) : InRange n.toInt :=
  ⟨n.le_toInt, n.toInt_lt⟩

theorem inRange_zero : InRange 0 := by
  rw [InRange]
  omega

/-- Digits that follow a number on its way from zero. -/
theorem readDigits_eq_ok_iff {sign : Int} (hsign : sign = 1 ∨ sign = -1)
    (fault : IntegerFault) {n m : Int} (hn : 0 ≤ sign * n) (hrange : InRange n)
    (s : List Char) :
    readDigits sign fault n s = .ok m ↔
      (∀ c ∈ s, c.isDigit = true) ∧ m = n * 10 ^ s.length + sign * value s ∧
        InRange m := by
  induction s generalizing n with
  | nil =>
      rw [readDigits_nil]
      constructor
      · rintro ⟨⟩
        exact ⟨nofun, by simp, hrange⟩
      · rintro ⟨-, hm, -⟩
        rw [hm]
        simp
  | cons c s ih =>
      rw [readDigits]
      cases hc : c.isDigit with
      | false =>
          rw [digit?_of_not_isDigit hc]
          refine iff_of_false nofun fun h => ?_
          rw [h.1 c List.mem_cons_self] at hc
          cases hc
      | true =>
          rw [digit?_of_isDigit hc, value_cons, List.length_cons]
          simp only [List.forall_mem_cons, hc, true_and]
          generalize c.toNat - '0'.toNat = d
          have hnext : 0 ≤ sign * (n * 10 + sign * (d : Int)) := by
            rcases hsign with rfl | rfl <;> omega
          have hwhole : n * 10 ^ (s.length + 1) +
              sign * ((d * 10 ^ s.length + value s : Nat) : Int) =
              (n * 10 + sign * (d : Int)) * 10 ^ s.length + sign * value s := by
            push_cast
            ring
          rw [hwhole]
          split
          · next hin => exact ih hnext hin
          · next hout =>
              refine iff_of_false nofun ?_
              rintro ⟨-, hm, hin⟩
              refine hout ?_
              generalize n * 10 + sign * (d : Int) = k at hnext hm
              have hpow : (1 : Int) ≤ 10 ^ s.length := one_le_pow₀ (by decide)
              have hvalue : (0 : Int) ≤ value s := Int.natCast_nonneg _
              rw [InRange] at hin
              have h63 : Int.pow 2 63 = 2 ^ 63 := rfl
              rcases hsign with rfl | rfl
              · have hle : k ≤ m := by nlinarith
                omega
              · have hle : m ≤ k := by nlinarith
                omega

theorem denotes_plus_iff {digits : List Char} {n : Int} :
    Denotes ('+' :: digits) n ↔
      digits ≠ [] ∧ (∀ c ∈ digits, c.isDigit = true) ∧ n = value digits := by
  constructor
  · intro h
    cases h with
    | plain _ hdigits => exact absurd (hdigits '+' List.mem_cons_self) (by decide)
    | plus hne hdigits => exact ⟨hne, hdigits, rfl⟩
  · rintro ⟨hne, hdigits, rfl⟩
    exact .plus hne hdigits

theorem denotes_minus_iff {digits : List Char} {n : Int} :
    Denotes ('-' :: digits) n ↔
      digits ≠ [] ∧ (∀ c ∈ digits, c.isDigit = true) ∧ n = -value digits := by
  constructor
  · intro h
    cases h with
    | plain _ hdigits => exact absurd (hdigits '-' List.mem_cons_self) (by decide)
    | minus hne hdigits => exact ⟨hne, hdigits, rfl⟩
  · rintro ⟨hne, hdigits, rfl⟩
    exact .minus hne hdigits

theorem denotes_plain_iff {digits : List Char} {n : Int}
    (hplus : ∀ rest, digits ≠ '+' :: rest) (hminus : ∀ rest, digits ≠ '-' :: rest) :
    Denotes digits n ↔
      digits ≠ [] ∧ (∀ c ∈ digits, c.isDigit = true) ∧ n = value digits := by
  constructor
  · intro h
    cases h with
    | plain hne hdigits => exact ⟨hne, hdigits, rfl⟩
    | plus => exact absurd rfl (hplus _)
    | minus => exact absurd rfl (hminus _)
  · rintro ⟨hne, hdigits, rfl⟩
    exact .plain hne hdigits

/-- Reading finds the 64-bit integer that a text denotes, and nothing else. -/
theorem read_eq_ok_iff (s : String) (n : Int64) :
    read s = .ok n ↔ Denotes s.toList n.toInt := by
  have hplus (digits : List Char) (m : Int) :
      readDigits 1 .tooLarge 0 digits = .ok m ↔ (∀ c ∈ digits, c.isDigit = true) ∧
        m = value digits ∧ InRange m := by
    rw [readDigits_eq_ok_iff (Or.inl rfl) _ (by decide) inRange_zero, zero_mul,
      zero_add, one_mul]
  have hminus (digits : List Char) (m : Int) :
      readDigits (-1) .tooSmall 0 digits = .ok m ↔
        (∀ c ∈ digits, c.isDigit = true) ∧ m = -value digits ∧ InRange m := by
    rw [readDigits_eq_ok_iff (Or.inr rfl) _ (by decide) inRange_zero, zero_mul,
      zero_add, neg_one_mul]
  -- The integer that is read is in the range, so making it one of 64 bits changes
  -- nothing.
  have hint {x : Except IntegerFault Int}
      (hx : ∀ m, x = .ok m ↔ Denotes s.toList m ∧ InRange m) :
      Int64.ofInt <$> x = .ok n ↔ Denotes s.toList n.toInt := by
    constructor
    · intro h
      cases x with
      | error fault => cases h
      | ok m =>
          obtain ⟨hdenotes, hlow, hhigh⟩ := (hx m).1 rfl
          obtain rfl : Int64.ofInt m = n := Except.ok.inj h
          rwa [Int64.toInt_ofInt_of_le hlow hhigh]
    · intro h
      rw [(hx n.toInt).2 ⟨h, inRange_toInt n⟩]
      exact congrArg Except.ok n.ofInt_toInt
  rw [read]
  refine hint fun m => ?_
  split
  · next h =>
      rw [h, denotes_plain_iff (by simp) (by simp)]
      exact iff_of_false nofun fun h => h.1.1 rfl
  · next h =>
      rw [h, denotes_plus_iff]
      exact iff_of_false nofun fun h => h.1.1 rfl
  · next h =>
      rw [h, denotes_minus_iff]
      exact iff_of_false nofun fun h => h.1.1 rfl
  · next digits hne h =>
      rw [h, denotes_plus_iff, hplus, and_iff_right hne, and_assoc]
  · next digits hne h =>
      rw [h, denotes_minus_iff, hminus, and_iff_right hne, and_assoc]
  · next hne _ _ hp hm =>
      rw [denotes_plain_iff hp hm, hplus, and_iff_right hne, and_assoc]

end SchemaLedger.Integer
