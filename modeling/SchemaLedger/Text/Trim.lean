/-!
# Trimming

`trim p s` removes the longest run of elements satisfying `p` from both ends
of the list `s`. The two kinds of blank the library knows, ASCII blanks in
bytes and Unicode blanks in text, are instances of the one definition.
-/

namespace SchemaLedger.Text

/-- Drop the longest run of `p` from the end of a list. -/
def trimEnd {α : Type} (p : α → Bool) (s : List α) : List α :=
  (s.reverse.dropWhile p).reverse

def trim {α : Type} (p : α → Bool) (s : List α) : List α :=
  trimEnd p (s.dropWhile p)

@[simp] theorem trimEnd_nil {α : Type} (p : α → Bool) :
    trimEnd p ([] : List α) = [] := rfl

@[simp] theorem trim_nil {α : Type} (p : α → Bool) :
    trim p ([] : List α) = [] := rfl

theorem exists_trimEnd_append {α : Type} (p : α → Bool) (s : List α) :
    ∃ t, s = trimEnd p s ++ t ∧ ∀ a ∈ t, p a = true := by
  refine ⟨(s.reverse.takeWhile p).reverse, ?_, ?_⟩
  · rw [trimEnd, ← List.reverse_append, List.takeWhile_append_dropWhile,
      List.reverse_reverse]
  · intro a ha
    exact List.all_eq_true.1 List.all_takeWhile a (List.mem_reverse.1 ha)

theorem exists_append_trim_append {α : Type} (p : α → Bool) (s : List α) :
    ∃ r t, s = r ++ trim p s ++ t ∧
      (∀ a ∈ r, p a = true) ∧ ∀ a ∈ t, p a = true := by
  obtain ⟨t, ht, hall⟩ := exists_trimEnd_append p (s.dropWhile p)
  refine ⟨s.takeWhile p, t, ?_, ?_, hall⟩
  · rw [List.append_assoc, trim, ← ht, List.takeWhile_append_dropWhile]
  · exact fun a ha => List.all_eq_true.1 List.all_takeWhile a ha

end SchemaLedger.Text
