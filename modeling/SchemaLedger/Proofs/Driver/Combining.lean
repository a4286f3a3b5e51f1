import SchemaLedger.MigrationError
/-!
# Combining faults

Several faults of one operation are combined two at a time. Whoever does that decides
which two come first, and the operands may themselves be aggregates. None of this can
be seen in the outcome: it is one aggregate of all the plain faults, in the order in
which they were given, `combined_eq`.
-/

namespace SchemaLedger.MigrationError

def isPlain : MigrationError → Bool
  | multiple _ => false
  | _ => true

/-- A plain fault, or an aggregate of nothing but plain faults. -/
def IsFlat : MigrationError → Prop
  | multiple faults => ∀ fault ∈ faults, fault.isPlain = true
  | _ => True

theorem IsFlat.isPlain_of_mem {fault plain : MigrationError} (h : fault.IsFlat)
    (hmem : plain ∈ fault.toList) : plain.isPlain = true := by
  cases fault with
  | multiple faults => exact h plain hmem
  | _ =>
      obtain rfl := List.mem_singleton.1 hmem
      rfl

/-- Calls that combine faults, with the faults at the leaves. -/
inductive Combination where
  | leaf (fault : MigrationError)
  | node (left right : Combination)

namespace Combination

def leaves : Combination → List MigrationError
  | leaf fault => [fault]
  | node left right => left.leaves ++ right.leaves

def combined : Combination → MigrationError
  | leaf fault => fault
  | node left right => left.combined.combine right.combined

/-- The plain faults at the leaves, from left to right. -/
def plainFaults : Combination → List MigrationError
  | leaf (multiple faults) => faults
  | leaf fault => [fault]
  | node left right => left.plainFaults ++ right.plainFaults

theorem toList_eq_plainFaults (fault : MigrationError) :
    fault.toList = (leaf fault).plainFaults := by
  cases fault <;> rfl

theorem plainFaults_eq_flatMap (t : Combination) :
    t.plainFaults = t.leaves.flatMap toList := by
  induction t with
  | leaf fault =>
      rw [leaves, List.flatMap_singleton, toList_eq_plainFaults]
  | node left right hleft hright =>
      rw [plainFaults, leaves, List.flatMap_append, hleft, hright]

/-- No bracketing loses, repeats or moves a fault. -/
theorem toList_combined (t : Combination) : t.combined.toList = t.plainFaults := by
  induction t with
  | leaf fault => exact toList_eq_plainFaults fault
  | node left right hleft hright =>
      rw [combined, toList_combine, hleft, hright, plainFaults]

theorem combined_eq_multiple {t : Combination} (h : 2 ≤ t.leaves.length) :
    t.combined = multiple t.plainFaults := by
  cases t with
  | leaf fault => simp [leaves] at h
  | node left right =>
      rw [combined, combine, toList_combined, toList_combined, plainFaults]

/-- Two or more faults, each of them plain or flat, are combined to one aggregate of
their plain faults in the order of the leaves, and so to the same by any other calls
with these leaves. -/
theorem combined_eq {t : Combination} (htwo : 2 ≤ t.leaves.length)
    (hflat : ∀ fault ∈ t.leaves, fault.IsFlat) :
    t.combined = multiple t.plainFaults ∧
    (∀ fault ∈ t.plainFaults, fault.isPlain = true) ∧
    ∀ u : Combination, u.leaves = t.leaves → u.combined = t.combined := by
  have heq := combined_eq_multiple htwo
  refine ⟨heq, fun plain hmem => ?_, fun u hu => ?_⟩
  · rw [plainFaults_eq_flatMap] at hmem
    obtain ⟨fault, hfault, hplain⟩ := List.mem_flatMap.1 hmem
    exact (hflat fault hfault).isPlain_of_mem hplain
  · rw [heq, combined_eq_multiple (hu ▸ htwo), plainFaults_eq_flatMap,
      plainFaults_eq_flatMap, hu]

/-- Aggregates between and in front of plain faults, an empty one among them. -/
theorem combined_eq_of_mixed_leaves :
    let held := lock .alreadyHeld
    let free := lock .notHeld
    let unknown := unknownScheme "db"
    let aggregate := multiple [free, held]
    let t := node (leaf held)
      (node (leaf aggregate) (node (leaf (multiple [])) (leaf unknown)))
    let u := node (node (leaf held) (node (leaf aggregate) (leaf (multiple []))))
      (leaf unknown)
    t.combined = multiple [held, free, held, unknown] ∧ u.combined = t.combined := by
  intro held free unknown aggregate t u
  have hflat : ∀ fault ∈ t.leaves, fault.IsFlat := by
    simp [t, leaves, IsFlat, held, free, unknown, aggregate, isPlain]
  obtain ⟨heq, -, hsame⟩ := combined_eq (t := t) (by decide) hflat
  exact ⟨heq, hsame u rfl⟩

end Combination

end SchemaLedger.MigrationError
