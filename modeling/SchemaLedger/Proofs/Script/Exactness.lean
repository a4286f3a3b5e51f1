import SchemaLedger.Proofs.Script.Iteration
/-!
# Splitting is exact

The statements that a splitter hands out before the first fault are the first
statements of the script, for any delimiter, cap and way of reading, and all of
them if there is no fault. If reads fail at some offset, the statements handed
out are those with delimiters that end by then, unless one is too long before
that: what the failure has cut short is never taken for a statement.
-/

namespace SchemaLedger

namespace Script

/-- The statements handed out before the first fault, or before the end. -/
def yielded : List Yield → List (List UInt8)
  | .ok statement :: rest => statement :: yielded rest
  | _ => []

theorem yielded_map_ok_append (ss : List (List UInt8)) (ys : List Yield) :
    yielded (ss.map .ok ++ ys) = ss ++ yielded ys := by
  induction ss with
  | nil => rfl
  | cons s ss ih => rw [List.map_cons, List.cons_append, yielded, ih]; rfl

@[simp] theorem yielded_error (fault : InputError) (ys : List Yield) :
    yielded (.error fault :: ys) = [] := rfl

theorem yielded_map_ok (ss : List (List UInt8)) :
    yielded (ss.map .ok) = ss := by
  simpa [yielded] using yielded_map_ok_append ss []

/-- The statements of a script with delimiters that end by offset `e`. -/
def statementsBy (delimiter bs : List UInt8) (e : Nat) : List (List UInt8) :=
  statements <| ((located delimiter.length 0 (pieces delimiter bs)).dropLast.filter
    (·.stop delimiter.length ≤ e)).map Piece.bytes

theorem statementsBy_isPrefix (delimiter bs : List UInt8) (e : Nat) :
    statementsBy delimiter bs e <+: statements (pieces delimiter bs) := by
  have h := (filter_located_isPrefix delimiter.length 0 e
    (pieces delimiter bs).dropLast).trans
      (dropLast_located _ _ _ ▸ List.dropLast_prefix _)
  have := statements_isPrefix (h.map Piece.bytes)
  rwa [map_bytes_located, ← dropLast_located] at this

end Script

open Script

namespace Source

/-- The reads of a source bring a script: all of it, or its beginning if they
fail. -/
def Brings (s : Source) (script : List UInt8) : Prop :=
  s.content <+: script ∧ (s.fault? = none → s.content = script)

theorem brings_interrupted_append {s : Source} {script : List UInt8}
    (h : s.Brings script) (n : Nat) :
    (List.replicate n .interrupted ++ s : Source).Brings script := by
  induction n with
  | zero => exact h
  | succ n ih => exact ih

theorem brings_bytes_cons {s : Source} {front rest : List UInt8}
    (h : s.Brings rest) (hfront : front ≠ []) :
    Brings (.bytes front :: s) (front ++ rest) := by
  obtain ⟨b, bs, rfl⟩ := List.exists_cons_of_ne_nil hfront
  exact ⟨(List.prefix_append_right_inj _).2 h.1,
    fun hfault => congrArg (b :: bs ++ ·) (h.2 hfault)⟩

theorem brings_paced (p : Pace) (script : List UInt8) :
    (paced p script).Brings script := by
  suffices h : ∀ offset, (p.deliveries offset script).Brings script from h 0
  intro offset
  fun_induction Pace.deliveries p offset script with
  | case1 offset bs ih =>
      refine brings_interrupted_append ?_ _
      cases p.failure.filter (·.1 == offset) with
      | some _ => exact ⟨List.nil_prefix, nofun⟩
      | none =>
          by_cases hbs : bs = []
          · subst hbs
            exact ⟨List.nil_prefix, fun _ => rfl⟩
          · have hstride : 1 ≤ p.stride offset bs.length := by
              simp only [Pace.stride]
              omega
            have htake : bs.take (p.stride offset bs.length) ≠ [] := fun hnil =>
              (List.take_eq_nil_iff.1 hnil).elim (by omega) hbs
            have h := brings_bytes_cons (ih hbs) htake
            rw [List.take_append_drop] at h
            simpa only [dif_neg hbs] using h

end Source

namespace Splitter

theorem statements_dropLast_located_eq {source : Source} {script d : List UInt8}
    (hsource : source.Brings script) (hd : d ≠ []) :
    statements ((located d.length 0
        (pieces d source.content)).dropLast.map Piece.bytes) =
      statementsBy d script source.content.length := by
  rw [dropLast_located_pieces_of_isPrefix hd hsource.1, Nat.zero_add]
  rfl

theorem results_start_cases {source : Source} {script : List UInt8}
    (hsource : source.Brings script) (delimiter : List UInt8) (cap : Nat) :
    let d := (start source delimiter cap).delimiter
    let results := (start source delimiter cap).results
    (source.fault? = none ∧
      results = (statements (pieces d script)).map .ok) ∨
    (∃ reason, source.fault? = some reason ∧
      results = (statementsBy d script source.content.length).map .ok ++
        [.error (.scriptUnreadable reason)]) ∨
    ∃ ss, ss <+: statements (pieces d script) ∧
      results = ss.map .ok ++ [.error (.statementTooLarge cap)] := by
  intro d results
  have hd : d ≠ [] := (start source delimiter cap).delimiter_ne_nil
  have hclosed := statements_dropLast_located_eq hsource hd
  let ps := located d.length 0 (pieces d source.content)
  have hres : results = outcomes cap d.length (source.readEnds chunkSize 0)
      source.fault? ps := results_start source delimiter cap
  have hne : ps ≠ [] := mt located_eq_nil_iff.1 (pieces_ne_nil _ _)
  rcases forall_fits_or_exists_first cap d.length
      (source.readEnds chunkSize 0) ps with hall | ⟨front, p, back, hps, hfront, hp⟩
  · rw [← List.dropLast_concat_getLast hne] at hall hres
    rw [outcomes_of_forall_fits _ hall] at hres
    cases hf : source.fault? with
    | none =>
        -- The script has been read to its end.
        refine Or.inl ⟨rfl, ?_⟩
        rw [hres, hf, closing, ← List.map_append, ← statements_append,
          ← List.map_singleton, ← List.map_append,
          List.dropLast_concat_getLast, map_bytes_located, hsource.2 hf]
    | some reason =>
        -- A read has failed.
        refine Or.inr (Or.inl ⟨reason, rfl, ?_⟩)
        rw [hres, hf, closing, hclosed]
  · -- A statement is too long.
    have hbefore : front <+: ps.dropLast := by
      rw [hps, List.dropLast_append_of_ne_nil (List.cons_ne_nil _ _)]
      exact List.prefix_append _ _
    refine Or.inr (Or.inr ⟨statements (front.map Piece.bytes), ?_, ?_⟩)
    · refine (statements_isPrefix (hbefore.map Piece.bytes)).trans ?_
      rw [hclosed]
      exact statementsBy_isPrefix d script _
    · rw [hres, hps, outcomes_append_of_not_fits hfront hp]

/-- Splitting hands out statements of the script in order and without a gap,
and nothing that a failing read has cut short. -/
theorem splitting_exact {source : Source} {script : List UInt8}
    (hsource : source.Brings script) (delimiter : List UInt8) (cap : Nat) :
    let d := if delimiter = [] then semicolon else delimiter
    let results := (start source delimiter cap).results
    yielded results <+: statements (pieces d script) ∧
    ((∀ y ∈ results, ∃ statement, y = .ok statement) →
      yielded results = statements (pieces d script)) ∧
    ∀ reason, source.fault? = some reason →
      (.error (.statementTooLarge cap) ∉ results →
        results = (statementsBy d script source.content.length).map .ok ++
          [.error (.scriptUnreadable reason)]) ∧
      (Statements.whole source false).results =
        [.error (.scriptUnreadable reason)] := by
  intro d
  have hwhole : ∀ reason, source.fault? = some reason →
      (Statements.whole source false).results =
        [.error (.scriptUnreadable reason)] := by
    intro reason hf
    rw [Statements.results_whole, hf]
  have hcases := results_start_cases hsource delimiter cap
  rw [delimiter_start source delimiter cap] at hcases
  generalize (start source delimiter cap).results = results at hcases ⊢
  dsimp only
  rcases hcases with ⟨hf, rfl⟩ | ⟨reason, hf, rfl⟩ | ⟨ss, hss, rfl⟩
  · rw [yielded_map_ok]
    refine ⟨List.prefix_refl _, fun _ => rfl, fun reason hreason => ?_⟩
    rw [hf] at hreason
    cases hreason
  · rw [yielded_map_ok_append, yielded_error, List.append_nil]
    refine ⟨statementsBy_isPrefix d script _, fun hok => ?_,
      fun reason' hreason => ?_⟩
    · obtain ⟨statement, h⟩ := hok (.error (.scriptUnreadable reason)) (by simp)
      cases h
    · obtain rfl : reason = reason' := Option.some.inj (hf ▸ hreason)
      exact ⟨fun _ => rfl, hwhole reason hf⟩
  · rw [yielded_map_ok_append, yielded_error, List.append_nil]
    refine ⟨hss, fun hok => ?_, fun reason hreason => ⟨fun hnot => ?_, ?_⟩⟩
    · obtain ⟨statement, h⟩ := hok (.error (.statementTooLarge cap)) (by simp)
      cases h
    · exact absurd (by simp) hnot
    · exact hwhole reason hreason

/-- Reads that fail between the two bytes of a delimiter: the piece in front of
it is not handed out. -/
theorem splitting_exact_of_failing_reads :
    let pace : Source.Pace :=
      { step := some 2, interruptions := [2], failure := some (6, "disk") }
    let script : List UInt8 := [0x61, 0x2D, 0x2D, 0x2D, 0x62, 0x2D, 0x2D]
    (start (.paced pace script) [0x2D, 0x2D] 8).results =
      [.ok [0x61], .error (.scriptUnreadable "disk")] := by
  intro pace script
  have hsource := Source.brings_paced pace script
  have hfault : (Source.paced pace script).fault? = some "disk" := by
    decide +kernel
  have hpieces : pieces [0x2D, 0x2D] (Source.paced pace script).content =
      [[0x61], [0x2D, 0x62, 0x2D]] := by decide +kernel
  have hends : (Source.paced pace script).readEnds chunkSize 0 = [2, 4, 6] := by
    decide +kernel
  have hnot : .error (.statementTooLarge 8) ∉
      (start (.paced pace script) [0x2D, 0x2D] 8).results := by
    rw [results_start_of_ne_nil _ (by decide), hends, hpieces, hfault]
    simp [located, outcomes, fits_mk, closing]
  rw [((splitting_exact hsource [0x2D, 0x2D] 8).2.2 "disk" hfault).1 hnot]
  have : statementsBy [0x2D, 0x2D] script
      (Source.paced pace script).content.length = [[0x61]] := by decide +kernel
  exact congrArg (List.map Except.ok · ++ _) this

end Splitter

end SchemaLedger
