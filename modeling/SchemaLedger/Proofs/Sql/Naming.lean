import SchemaLedger.Sql.Name
/-!
# What names denote

A name is taken apart in two ways: the catalog is searched for what stands before
and after the last dot, and statements are written with an identifier for each part
between dots. `denoted?_eq_sought_iff` says that both mean the same relation if and
only if the name has at most one dot: with two of them the identifiers are those of
a catalog and a schema, and what is searched for is a schema with a dot in its name.
-/

namespace SchemaLedger.Sql

section Cut

variable {separator : Char}

theorem not_mem_of_mem_cut {s part : List Char} (h : part ∈ cut separator s) :
    separator ∉ part := by
  induction s generalizing part with
  | nil =>
      obtain rfl := List.mem_singleton.1 h
      simp
  | cons c cs ih =>
      rw [cut] at h
      split at h
      · obtain rfl | hpart := List.mem_cons.1 h
        · simp
        · exact ih hpart
      · next hc =>
          split at h
          · next hnil => exact absurd hnil (cut_ne_nil separator cs)
          · next first parts hparts =>
              obtain rfl | hpart := List.mem_cons.1 h
              · have hfirst : separator ∉ first := ih (by simp [hparts])
                simp [hfirst, Ne.symm hc]
              · exact ih (by simp [hparts, hpart])

theorem length_cut (s : List Char) :
    (cut separator s).length = s.count separator + 1 := by
  induction s with
  | nil => rfl
  | cons c cs ih =>
      rw [cut]
      split
      · next hc =>
          subst hc
          rw [List.length_cons, ih, List.count_cons_self]
      · next hc =>
          rw [List.count_cons_of_ne hc, ← ih]
          split
          · next hnil => exact absurd hnil (cut_ne_nil separator cs)
          · next hparts => rw [hparts, List.length_cons, List.length_cons]

/-- A text without separators is not cut. -/
theorem cut_of_not_mem {s : List Char} (h : separator ∉ s) :
    cut separator s = [s] := by
  induction s with
  | nil => rfl
  | cons c cs ih =>
      obtain ⟨hc, hcs⟩ := not_or.1 (mt List.mem_cons.2 h)
      rw [cut, if_neg (Ne.symm hc), ih hcs]

theorem cut_eq_splitOn (s : List Char) : cut separator s = s.splitOn separator := by
  induction s with
  | nil => rfl
  | cons c cs ih =>
      rw [cut, ih, List.splitOn, List.splitOn, List.splitOnP_cons_eq_if_modifyHead]
      by_cases hc : c = separator
      · rw [if_pos hc, if_pos (by simpa using hc)]
      · rw [if_neg hc, if_neg (by simpa using hc)]
        cases hparts : cs.splitOnP (· == separator) with
        | nil => exact absurd hparts (List.splitOnP_ne_nil _ _)
        | cons part parts => rfl

theorem cut_append_cons (before after : List Char) :
    cut separator (before ++ separator :: after) =
      cut separator before ++ cut separator after := by
  rw [cut_eq_splitOn, List.splitOn_append_cons_self, ← cut_eq_splitOn,
    ← cut_eq_splitOn]

theorem cut_intercalate {parts : List (List Char)} (hne : parts ≠ [])
    (h : ∀ part ∈ parts, separator ∉ part) :
    cut separator ([separator].intercalate parts) = parts := by
  rw [cut_eq_splitOn, List.splitOn_intercalate separator h hne]

theorem not_mem_of_cutLast?_eq_none {s : List Char}
    (h : cutLast? separator s = none) : separator ∉ s := by
  induction s with
  | nil => simp
  | cons c cs ih =>
      rw [cutLast?] at h
      split at h
      · cases h
      · next hcs =>
          split at h
          · cases h
          · next hc => simp [ih hcs, Ne.symm hc]

theorem cutLast?_of_not_mem {s : List Char} (h : separator ∉ s) :
    cutLast? separator s = none := by
  induction s with
  | nil => rfl
  | cons c cs ih =>
      obtain ⟨hc, hcs⟩ := not_or.1 (mt List.mem_cons.2 h)
      simp [cutLast?, ih hcs, Ne.symm hc]

theorem cutLast?_append_cons (before : List Char) {after : List Char}
    (h : separator ∉ after) :
    cutLast? separator (before ++ separator :: after) = some (before, after) := by
  induction before with
  | nil => simp [cutLast?, cutLast?_of_not_mem h]
  | cons c before ih => rw [List.cons_append, cutLast?, ih]

theorem eq_of_cutLast?_eq_some {s before after : List Char}
    (h : cutLast? separator s = some (before, after)) :
    s = before ++ separator :: after ∧ separator ∉ after := by
  induction s generalizing before with
  | nil => cases h
  | cons c cs ih =>
      rw [cutLast?] at h
      split at h
      · next hcs =>
          cases h
          obtain ⟨rfl, hafter⟩ := ih hcs
          exact ⟨rfl, hafter⟩
      · next hcs =>
          split at h
          · next hc =>
              cases h
              exact ⟨by rw [hc, List.nil_append], not_mem_of_cutLast?_eq_none hcs⟩
          · cases h

end Cut

theorem count_schema (name : String) :
    (splitName name).schema.toList.count '.' = name.toList.count '.' - 1 := by
  rw [splitName]
  split
  · next h =>
      obtain ⟨hname, hafter⟩ := eq_of_cutLast?_eq_some h
      rw [hname, String.toList_ofList, List.count_append, List.count_cons_self,
        List.count_eq_zero.2 hafter]
      omega
  · next h =>
      rw [List.count_eq_zero.2 (not_mem_of_cutLast?_eq_none h)]
      exact (by decide : defaultSchema.toList.count '.' = 0)

theorem length_tableParts (name : String) :
    (tableParts name).length = name.toList.count '.' - 1 + 2 := by
  simp [tableParts, length_cut, count_schema]

theorem tableParts_eq_pair {name : String} (h : name.toList.count '.' ≤ 1) :
    tableParts name = [(splitName name).schema, (splitName name).table] := by
  have hdots : '.' ∉ (splitName name).schema.toList := by
    rw [← List.count_eq_zero, count_schema]
    omega
  simp [tableParts, cut_of_not_mem hdots]

theorem not_mem_of_mem_tableParts {name part : String}
    (h : part ∈ (tableParts name).dropLast) : '.' ∉ part.toList := by
  rw [tableParts, List.dropLast_concat] at h
  obtain ⟨chars, hchars, rfl⟩ := List.mem_map.1 h
  rw [String.toList_ofList]
  exact not_mem_of_mem_cut hchars

/-- What identifiers denote, the innermost one last: a catalog, a schema and a
table. The catalog can be left out for the current one. -/
def denoted? (current : String) : List String → Option (String × String × String)
  | [schema, table] => some (current, schema, table)
  | [catalog, schema, table] => some (catalog, schema, table)
  | _ => none

/-- What is looked for in the current catalog. -/
def sought (current name : String) : String × String × String :=
  (current, (splitName name).schema, (splitName name).table)

/-- The identifiers of a name denote what is looked for if and only if there is no
catalog among them. -/
theorem denoted?_eq_sought_iff (current name : String) :
    denoted? current (tableParts name) = some (sought current name) ↔
      name.toList.count '.' ≤ 1 := by
  constructor
  · intro h
    have hlength := length_tableParts name
    have hcount := count_schema name
    match hparts : tableParts name with
    | [_, _] =>
        rw [hparts] at hlength
        simp only [List.length_cons, List.length_nil] at hlength
        omega
    | [catalog, schema, table] =>
        rw [hparts] at h
        obtain ⟨-, rfl, -⟩ : catalog = current ∧ schema = (splitName name).schema ∧
            table = (splitName name).table := by
          simpa [denoted?, sought] using h
        have hpart : (splitName name).schema ∈ (tableParts name).dropLast := by
          simp [hparts]
        have hdots := not_mem_of_mem_tableParts hpart
        rw [← List.count_eq_zero, hcount] at hdots
        omega
    | [] | [_] | _ :: _ :: _ :: _ :: _ =>
        rw [hparts] at h
        cases h
  · intro h
    rw [tableParts_eq_pair h]
    rfl

end SchemaLedger.Sql
