import SchemaLedger.Script.Splitter
/-!
# Searching for a delimiter

`findBytes pattern bs` is the leftmost position at which `pattern` occurs in
`bs`. The splitter never searches a whole script: it searches the bytes that
it holds, and again when more have arrived, beginning late enough to save work.
The lemmas here say why that finds the same positions. A position found in the
bytes held is found in any continuation of them, and after a search in vain
only the last `pattern.length - 1` bytes can begin an occurrence.
-/

namespace SchemaLedger

theorem prefix_drop_of_findBytes {pattern bs : List UInt8} {n : Nat}
    (h : findBytes pattern bs = some n) : pattern <+: bs.drop n := by
  induction bs generalizing n with
  | nil =>
      by_cases hp : pattern = []
      · simp [hp]
      · simp [findBytes, hp] at h
  | cons b rest ih =>
      by_cases hp : pattern.isPrefixOf (b :: rest) = true
      · simp only [findBytes, hp, if_true, Option.some.injEq] at h
        subst h
        exact List.isPrefixOf_iff_prefix.1 hp
      · simp only [findBytes, hp] at h
        obtain ⟨m, hm, rfl⟩ := Option.map_eq_some_iff.1 h
        exact ih hm

theorem not_prefix_drop_of_lt_findBytes {pattern bs : List UInt8} {n m : Nat}
    (h : findBytes pattern bs = some n) (hm : m < n) :
    ¬ pattern <+: bs.drop m := by
  induction bs generalizing n m with
  | nil =>
      by_cases hp : pattern = []
      · simp only [findBytes, hp, if_true, Option.some.injEq] at h
        omega
      · simp [findBytes, hp] at h
  | cons b rest ih =>
      by_cases hp : pattern.isPrefixOf (b :: rest) = true
      · simp only [findBytes, hp, if_true, Option.some.injEq] at h
        omega
      · simp only [findBytes, hp] at h
        obtain ⟨k, hk, rfl⟩ := Option.map_eq_some_iff.1 h
        cases m with
        | zero => exact fun hpre => hp (List.isPrefixOf_iff_prefix.2 hpre)
        | succ m => exact ih hk (by omega)

theorem findBytes_eq_none_iff {pattern bs : List UInt8} (hp : pattern ≠ []) :
    findBytes pattern bs = none ↔ ∀ m, ¬ pattern <+: bs.drop m := by
  induction bs with
  | nil => simp [findBytes, hp]
  | cons b rest ih =>
      by_cases hpre : pattern.isPrefixOf (b :: rest) = true
      · refine iff_of_false (by simp [findBytes, hpre]) fun h => ?_
        exact h 0 (List.isPrefixOf_iff_prefix.1 hpre)
      · simp only [findBytes, hpre, Bool.false_eq_true, if_false,
          Option.map_eq_none_iff, ih]
        constructor
        · intro h m
          cases m with
          | zero => exact fun h0 => hpre (List.isPrefixOf_iff_prefix.2 h0)
          | succ m => exact h m
        · exact fun h m => h (m + 1)

theorem findBytes_eq_some_iff {pattern bs : List UInt8} {n : Nat}
    (hp : pattern ≠ []) :
    findBytes pattern bs = some n ↔
      pattern <+: bs.drop n ∧ ∀ m < n, ¬ pattern <+: bs.drop m := by
  refine ⟨fun h => ⟨prefix_drop_of_findBytes h,
    fun m hm => not_prefix_drop_of_lt_findBytes h hm⟩, fun ⟨hn, hlt⟩ => ?_⟩
  cases hf : findBytes pattern bs with
  | none => exact absurd hn ((findBytes_eq_none_iff hp).1 hf n)
  | some k =>
      have hk := prefix_drop_of_findBytes hf
      rcases Nat.lt_trichotomy k n with h | h | h
      · exact absurd hk (hlt k h)
      · rw [h]
      · exact absurd hn (not_prefix_drop_of_lt_findBytes hf h)

theorem prefix_drop_append_iff {pattern bs more : List UInt8} {n : Nat}
    (h : n + pattern.length ≤ bs.length) :
    pattern <+: (bs ++ more).drop n ↔ pattern <+: bs.drop n := by
  rw [List.drop_append_of_le_length (by omega)]
  refine ⟨fun hpre => ?_, fun hpre => hpre.trans (List.prefix_append _ _)⟩
  exact List.prefix_of_prefix_length_le hpre (List.prefix_append _ _)
    (by rw [List.length_drop]; omega)

theorem findBytes_append_of_some {pattern bs : List UInt8} {n : Nat}
    (hp : pattern ≠ []) (h : findBytes pattern bs = some n)
    (more : List UInt8) : findBytes pattern (bs ++ more) = some n := by
  have hle := length_le_of_findBytes h
  obtain ⟨hn, hlt⟩ := (findBytes_eq_some_iff hp).1 h
  refine (findBytes_eq_some_iff hp).2 ⟨?_, fun m hm => ?_⟩
  · exact (prefix_drop_append_iff hle).2 hn
  · rw [prefix_drop_append_iff (by omega)]
    exact hlt m hm

theorem length_lt_of_findBytes_append {pattern bs more : List UInt8} {n : Nat}
    (hp : pattern ≠ []) (hbs : findBytes pattern bs = none)
    (h : findBytes pattern (bs ++ more) = some n) :
    bs.length < n + pattern.length := by
  refine Nat.lt_of_not_le fun hle => ?_
  have hpre := prefix_drop_of_findBytes h
  rw [prefix_drop_append_iff hle] at hpre
  exact (findBytes_eq_none_iff hp).1 hbs n hpre

/-- A search may leave out positions at which nothing begins. -/
theorem findBytes_eq_map_drop {pattern bs : List UInt8} {k : Nat}
    (hp : pattern ≠ []) (hk : ∀ m < k, ¬ pattern <+: bs.drop m) :
    findBytes pattern bs = (findBytes pattern (bs.drop k)).map (k + ·) := by
  cases hf : findBytes pattern (bs.drop k) with
  | none =>
      refine (findBytes_eq_none_iff hp).2 fun m => ?_
      rcases Nat.lt_or_ge m k with hm | hm
      · exact hk m hm
      · have := (findBytes_eq_none_iff hp).1 hf (m - k)
        rwa [List.drop_drop, Nat.add_sub_cancel' hm] at this
  | some n =>
      obtain ⟨hn, hlt⟩ := (findBytes_eq_some_iff hp).1 hf
      rw [List.drop_drop] at hn
      refine (findBytes_eq_some_iff hp).2 ⟨hn, fun m hm => ?_⟩
      have hm : m < k + n := hm
      rcases Nat.lt_or_ge m k with hmk | hmk
      · exact hk m hmk
      · have := hlt (m - k) (by omega)
        rwa [List.drop_drop, Nat.add_sub_cancel' hmk] at this

/-- After a search in vain, a search of a continuation may begin where a
delimiter could straddle the two. -/
theorem findBytes_append_of_none {pattern bs : List UInt8}
    (hp : pattern ≠ []) (h : findBytes pattern bs = none)
    (more : List UInt8) :
    findBytes pattern (bs ++ more) =
      (findBytes pattern
        ((bs ++ more).drop (bs.length - (pattern.length - 1)))).map
        (bs.length - (pattern.length - 1) + ·) := by
  have hpos : 0 < pattern.length := List.length_pos_iff.2 hp
  refine findBytes_eq_map_drop hp fun m hm => ?_
  rw [prefix_drop_append_iff (by omega)]
  exact (findBytes_eq_none_iff hp).1 h m

end SchemaLedger
