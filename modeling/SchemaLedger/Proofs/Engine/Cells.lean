import SchemaLedger.Engine.Cell
import SchemaLedger.Proofs.Text.Numerals
/-!
# Integers in rows

An integer passes two conversions on its way out of the database: its cell becomes a
value of a row, and a getter of the row makes a machine integer of that value. Neither
wraps a number around or cuts it off: a getter answers the number of the cell or
refuses the column, `integers_exact`.

The getter for integers with a sign refuses those that do not fit 64 bits. So does the
getter for integers without one, and it also refuses the integers of 128 bits from
2 ^ 63 on, which have become text before it sees them.
-/

namespace SchemaLedger

open Integer (InRange)

namespace Row

variable {α : Type} {expected : String} {convert : Value → Option α} {r : Row}
  {index : Nat} {v : Value}

theorem get_of_some {a : α} (hv : r[index]? = some v) (ha : convert v = some a) :
    r.get expected convert index = .ok a := by
  rw [get, hv]
  simp only [ha]

theorem get_of_none (hv : r[index]? = some v) (ha : convert v = none) :
    r.get expected convert index =
      .error (.typeMismatch index expected (v.typeName ++ " " ++ v.shown)) := by
  rw [get, hv]
  simp only [ha]

/-- A getter answers the number `n` if that is `wanted`, and otherwise refuses the
column. -/
def Answers (toInt : α → Int) (n : Int) (index : Nat) (wanted : Prop)
    (answer : Except DatabaseError α) : Prop :=
  (wanted → ∃ a, answer = .ok a ∧ toInt a = n) ∧
  (¬ wanted →
    ∃ expected found, answer = .error (.typeMismatch index expected found))

theorem answers_get {toInt : α → Int} {n : Int} {wanted : Prop}
    (hv : r[index]? = some v)
    (hwanted : wanted → ∃ a, convert v = some a ∧ toInt a = n)
    (hrefused : ¬ wanted → convert v = none) :
    Answers toInt n index wanted (r.get expected convert index) := by
  refine ⟨fun h => ?_, fun h => ⟨_, _, get_of_none hv (hrefused h)⟩⟩
  obtain ⟨a, ha, hn⟩ := hwanted h
  exact ⟨a, get_of_some hv ha, hn⟩

section Conversions

theorem int64?_ubigint_of_lt {a : UInt64} (h : a.toNat < 2 ^ 63) :
    ∃ b, int64? (.ubigint a) = some b ∧ b.toInt = a.toNat := by
  refine ⟨a.toInt64, if_pos h, ?_⟩
  have hbits : 2 * a.toBitVec.toNat < 2 ^ 64 := by
    change 2 * a.toNat < 2 ^ 64
    omega
  exact BitVec.toInt_eq_toNat_of_lt hbits

theorem int64?_ubigint_of_le {a : UInt64} (h : 2 ^ 63 ≤ a.toNat) :
    int64? (.ubigint a) = none :=
  if_neg (Nat.not_lt.2 h)

theorem uint64?_bigint_of_nonneg {a : Int64} (h : 0 ≤ a.toInt) :
    ∃ b, uint64? (.bigint a) = some b ∧ (b.toNat : Int) = a.toInt := by
  have hle : 0 ≤ a := Int64.le_iff_toInt_le.2 h
  refine ⟨a.toUInt64, if_pos hle, ?_⟩
  rw [Int64.toNat_toUInt64_of_le hle]
  exact Int.toNat_of_nonneg h

theorem uint64?_bigint_of_neg {a : Int64} (h : a.toInt < 0) :
    uint64? (.bigint a) = none :=
  if_neg fun hle => Int.not_lt.2 (Int64.le_iff_toInt_le.1 hle) h

end Conversions

end Row

namespace Engine

namespace IntegerType

variable {t : IntegerType} {n : Int}

theorem contains_cases (h : t.contains n = true) :
    (t.signed = true ∧ t.bits ≤ 64 ∧ InRange n) ∨
    (t.signed = false ∧ t.bits ≤ 64 ∧ 0 ≤ n ∧ n < 2 ^ 64) ∨
    t = .hugeint ∨ t = .uhugeint := by
  simp only [contains, Bool.and_eq_true, decide_eq_true_eq] at h
  rw [InRange]
  cases t <;> simp [least, bound, bits, signed] at h ⊢ <;> omega

end IntegerType

namespace Cell

variable {t : IntegerType} {n : Int}

theorem integerValue_of_inRange (ht : t.signed = true ∨ t = .uhugeint)
    (hn : InRange n) :
    ∃ a : Int64, integerValue t n = .bigint a ∧ a.toInt = n := by
  have h63 : Int.pow 2 63 = 2 ^ 63 := rfl
  refine ⟨Int64.ofInt n, ?_, Int64.toInt_ofInt_of_le hn.1 hn.2⟩
  rw [integerValue, if_pos (by simpa using ht), if_pos (by simpa [InRange, h63] using hn)]

theorem integerValue_of_not_inRange (ht : t.signed = true ∨ t = .uhugeint)
    (hn : ¬ InRange n) : integerValue t n = .text (toString n) := by
  have h63 : Int.pow 2 63 = 2 ^ 63 := rfl
  rw [integerValue, if_pos (by simpa using ht), if_neg (by simpa [InRange, h63] using hn)]

theorem integerValue_of_unsigned (hsigned : t.signed = false) (hbits : t.bits ≤ 64)
    (hlow : 0 ≤ n) (hhigh : n < 2 ^ 64) :
    ∃ a : UInt64, integerValue t n = .ubigint a ∧ (a.toNat : Int) = n := by
  have ht : ¬ (t.signed || t == .uhugeint) = true := by
    cases t <;> simp_all [IntegerType.signed, IntegerType.bits]
  refine ⟨n.toNat.toUInt64, ?_, ?_⟩
  · rw [integerValue, if_neg ht]
  · have hsize : n.toNat < UInt64.size := by
      change n.toNat < 2 ^ 64
      omega
    rw [Nat.toUInt64_eq, UInt64.toNat_ofNat_of_lt' hsize, Int.toNat_of_nonneg hlow]

/-- What becomes of an integer: it keeps its number, except that one of 128 bits that
does not fit 64 bits with a sign becomes text. -/
theorem integerValue_cases (h : t.contains n = true) :
    (InRange n ∧ ∃ a : Int64, integerValue t n = .bigint a ∧ a.toInt = n) ∨
    (t.bits ≤ 64 ∧
      ∃ a : UInt64, integerValue t n = .ubigint a ∧ (a.toNat : Int) = n) ∨
    (t.bits = 128 ∧ ¬ InRange n ∧ integerValue t n = .text (toString n)) := by
  have hwide : (t.signed = true ∨ t = .uhugeint) → t.bits = 128 ∨ InRange n →
      (InRange n ∧ ∃ a : Int64, integerValue t n = .bigint a ∧ a.toInt = n) ∨
      (t.bits = 128 ∧ ¬ InRange n ∧ integerValue t n = .text (toString n)) := by
    intro ht hbits
    by_cases hn : InRange n
    · exact Or.inl ⟨hn, integerValue_of_inRange ht hn⟩
    · exact Or.inr ⟨hbits.resolve_right hn, hn, integerValue_of_not_inRange ht hn⟩
  rcases IntegerType.contains_cases h with
    ⟨hsigned, -, hn⟩ | ⟨hsigned, hbits, hlow, hhigh⟩ | rfl | rfl
  · exact (hwide (Or.inl hsigned) (Or.inr hn)).imp_right Or.inr
  · exact Or.inr (Or.inl
      ⟨hbits, integerValue_of_unsigned hsigned hbits hlow hhigh⟩)
  · exact (hwide (Or.inl rfl) (Or.inl rfl)).imp_right Or.inr
  · exact (hwide (Or.inr rfl) (Or.inl rfl)).imp_right Or.inr

end Cell

end Engine

namespace Row

open Engine

/-- Of the column of an integer, the getters answer its number or refuse it. -/
theorem integers_exact {t : IntegerType} {n : Int} (hn : t.contains n = true) {r : Row}
    {index : Nat} (hcell : r[index]? = some (Cell.integer t n).toValue) :
    Answers Int64.toInt n index (-2 ^ 63 ≤ n ∧ n < 2 ^ 63) (r.getInt64 index) ∧
    Answers (fun a : UInt64 => a.toNat) n index
      (0 ≤ n ∧ n < 2 ^ 64 ∧ (t.bits = 128 → n < 2 ^ 63)) (r.getUInt64 index) := by
  rw [Cell.toValue] at hcell
  rcases Cell.integerValue_cases hn with
    ⟨hrange, a, ha, rfl⟩ | ⟨hbits, a, ha, rfl⟩ | ⟨hbits, hrange, ha⟩
  · rw [ha] at hcell
    refine ⟨answers_get hcell (fun _ => ⟨a, rfl, rfl⟩) fun h => absurd hrange h,
      answers_get hcell (fun h => ?_) fun h => ?_⟩
    · exact uint64?_bigint_of_nonneg h.1
    · refine uint64?_bigint_of_neg (Int.not_le.1 fun hle => h ⟨hle, ?_⟩)
      rw [InRange] at hrange
      omega
  · rw [ha] at hcell
    have := a.toNat_lt
    refine ⟨answers_get hcell (fun h => ?_) fun h => ?_,
      answers_get hcell (fun _ => ⟨a, rfl, rfl⟩) fun h => absurd ?_ h⟩
    · exact int64?_ubigint_of_lt (by omega)
    · exact int64?_ubigint_of_le (by omega)
    · omega
  · rw [ha] at hcell
    rw [InRange] at hrange
    exact ⟨answers_get hcell (fun h => absurd h hrange) fun _ => rfl,
      answers_get hcell (fun h => absurd ⟨by omega, h.2.2 hbits⟩ hrange) fun _ => rfl⟩

/-- The greatest integer of 64 bits without a sign. -/
theorem integers_exact_of_greatest :
    let r : Row := [(Cell.integer .ubigint 18446744073709551615).toValue]
    (∃ expected found, r.getInt64 0 = .error (.typeMismatch 0 expected found)) ∧
    ∃ a, r.getUInt64 0 = .ok a ∧ (a.toNat : Int) = 18446744073709551615 := by
  intro r
  have hn : IntegerType.ubigint.contains 18446744073709551615 = true := by decide
  have hcell : r[0]? = some (Cell.integer .ubigint 18446744073709551615).toValue := rfl
  have h := integers_exact hn hcell
  exact ⟨h.1.2 (by decide), h.2.1 (by decide)⟩

/-- An integer of 128 bits that fits 64 bits, but not with a sign, is refused. -/
theorem wide_integer_refused :
    let n : Int := 9223372036854775808
    let r : Row := [(Cell.integer .hugeint n).toValue]
    IntegerType.hugeint.contains n = true ∧ 0 ≤ n ∧ n < 2 ^ 64 ∧
    r.getUInt64 0 = .error
      (.typeMismatch 0 "UBIGINT" "VARCHAR 9223372036854775808") := by
  refine ⟨by decide, by decide, by decide, ?_⟩
  decide +kernel

end Row

end SchemaLedger
