import SchemaLedger.Text.Trim
/-!
# What trimming leaves

A trimmed list neither begins nor ends with an element that is trimmed away, and
such a list is left alone, so a second trimming changes nothing.
-/

namespace SchemaLedger.Text

variable {α : Type} {p : α → Bool}

theorem trimEnd_eq_self {s : List α}
    (hlast : ∀ a, s.getLast? = some a → p a = false) : trimEnd p s = s := by
  rw [trimEnd]
  cases hr : s.reverse with
  | nil => simpa using hr.symm
  | cons a rest =>
      have ha : p a = false := hlast a (by rw [← List.head?_reverse, hr]; rfl)
      rw [List.dropWhile_cons_of_neg (by simp [ha]), ← hr, List.reverse_reverse]

theorem trim_eq_self {s : List α} (hfirst : ∀ a, s.head? = some a → p a = false)
    (hlast : ∀ a, s.getLast? = some a → p a = false) : trim p s = s := by
  cases s with
  | nil => rfl
  | cons a rest =>
      rw [trim, List.dropWhile_cons_of_neg (by simp [hfirst a rfl])]
      exact trimEnd_eq_self hlast

/-- What ends in something that stays loses nothing in front of it. -/
theorem trimEnd_append {s : List α} (hlast : ∃ a, s.getLast? = some a ∧ p a = false)
    (t : List α) : trimEnd p (s ++ t) = s ++ trimEnd p t := by
  obtain ⟨a, ha, hp⟩ := hlast
  obtain ⟨front, rfl⟩ := List.getLast?_eq_some_iff.1 ha
  rw [trimEnd, List.reverse_append, List.dropWhile_append, List.reverse_concat]
  split
  · next hempty =>
      rw [List.dropWhile_cons_of_neg (by simp [hp]), trimEnd,
        List.isEmpty_iff.1 hempty, List.reverse_nil, List.append_nil,
        ← List.reverse_concat, List.reverse_reverse]
  · rw [← List.reverse_concat, List.reverse_append, List.reverse_reverse, trimEnd]

/-- A front of which nothing is trimmed away stays, whatever stands behind it. -/
theorem trim_append {s : List α} (hne : s ≠ []) (h : ∀ a ∈ s, p a = false)
    (t : List α) : trim p (s ++ t) = s ++ trimEnd p t := by
  obtain ⟨a, rest, rfl⟩ := List.exists_cons_of_ne_nil hne
  have hfirst : ¬ p a = true := by simp [h a List.mem_cons_self]
  rw [trim, List.cons_append, List.dropWhile_cons_of_neg hfirst, ← List.cons_append]
  have hlast := List.getLast?_eq_some_getLast hne
  exact trimEnd_append ⟨_, hlast, h _ (List.getLast_mem hne)⟩ t

theorem of_getLast?_trimEnd {s : List α} {a : α}
    (h : (trimEnd p s).getLast? = some a) : p a = false := by
  rw [trimEnd, List.getLast?_reverse] at h
  have := List.head?_dropWhile_not p s.reverse
  rwa [h] at this

theorem trimEnd_trimEnd (s : List α) : trimEnd p (trimEnd p s) = trimEnd p s :=
  trimEnd_eq_self fun _ h => of_getLast?_trimEnd h

theorem of_getLast?_trim {s : List α} {a : α}
    (h : (trim p s).getLast? = some a) : p a = false :=
  of_getLast?_trimEnd h

theorem of_head?_trim {s : List α} {a : α} (h : (trim p s).head? = some a) :
    p a = false := by
  obtain ⟨t, ht, -⟩ := exists_trimEnd_append p (s.dropWhile p)
  have hhead : (s.dropWhile p).head? = some a := by
    rw [ht, List.head?_append]
    exact Option.or_eq_some_iff.2 (Or.inl h)
  have := List.head?_dropWhile_not p s
  rwa [hhead] at this

theorem trim_trim (s : List α) : trim p (trim p s) = trim p s :=
  trim_eq_self (fun _ h => of_head?_trim h) fun _ h => of_getLast?_trim h

end SchemaLedger.Text
