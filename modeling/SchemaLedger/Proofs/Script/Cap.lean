import Mathlib.Data.List.TakeWhile
import SchemaLedger.Proofs.Script.Iteration
/-!
# The cap on statements

A cap bounds the pieces of a script, without their delimiters: `capped` is what
it leaves of them, whatever way the script is read. A splitter that has found no
delimiter compares the cap with all bytes held, and if a read ends inside a
delimiter then the bytes of its first part are among those. A piece within the
cap is then taken for one that is too long. The pieces to which this does not
happen are the calm ones, and `results_eq_capped_iff` says when the others
change what is handed out. A delimiter of a single byte has no first part, and
its pieces are calm.
-/

namespace SchemaLedger

namespace Script

/-- What a cap leaves of some pieces: the statements in front of the first piece
that is too long, and the fault. -/
def capped (cap : Nat) (ps : List (List UInt8)) : List Yield :=
  (statements (ps.takeWhile (·.length ≤ cap))).map .ok ++
    if ∀ p ∈ ps, p.length ≤ cap then [] else [.error (.statementTooLarge cap)]

@[simp] theorem capped_nil (cap : Nat) : capped cap [] = [] := rfl

theorem capped_cons_of_lt {cap : Nat} {p : List UInt8} (h : cap < p.length)
    (ps : List (List UInt8)) :
    capped cap (p :: ps) = [.error (.statementTooLarge cap)] := by
  have hnot : ¬ ∀ q ∈ p :: ps, q.length ≤ cap := fun hall => by
    have := hall p List.mem_cons_self
    omega
  rw [capped, List.takeWhile_cons_of_neg (by simpa using h), if_neg hnot]
  rfl

theorem capped_cons_of_le {cap : Nat} {p : List UInt8} (h : p.length ≤ cap)
    (ps : List (List UInt8)) :
    capped cap (p :: ps) = (statements [p]).map .ok ++ capped cap ps := by
  rw [capped, capped, List.takeWhile_cons_of_pos (by simpa using h),
    statements_cons, List.map_append, List.append_assoc]
  simp only [List.forall_mem_cons, h, true_and]

theorem outcomes_none (cap width : Nat) (ends : List Nat) (ps : List Piece) :
    outcomes cap width ends none ps =
      (statements ((ps.takeWhile (·.Fits cap width ends)).map Piece.bytes)).map
          .ok ++
        if ∀ p ∈ ps, p.Fits cap width ends then []
        else [.error (.statementTooLarge cap)] := by
  induction ps with
  | nil => rfl
  | cons p ps ih =>
      by_cases hp : p.Fits cap width ends
      · have hcons : outcomes cap width ends none (p :: ps) =
            (statements [p.bytes]).map .ok ++ outcomes cap width ends none ps := by
          by_cases hps : ps = []
          · subst hps
            rw [outcomes_singleton hp]
            simp [closing, outcomes]
          · exact outcomes_cons_of_fits hp hps
        rw [hcons, ih, List.takeWhile_cons_of_pos (by simpa using hp),
          List.map_cons, statements_cons p.bytes (List.map _ _), List.map_append,
          List.append_assoc]
        simp only [List.forall_mem_cons, hp, true_and]
      · rw [outcomes_cons_of_not_fits hp,
          List.takeWhile_cons_of_neg (by simpa using hp),
          if_neg fun hall => hp (hall p List.mem_cons_self)]
        rfl

theorem calm_of_width_one {cap : Nat} {p : Piece} (h : p.bytes.length ≤ cap)
    (ends : List Nat) : p.Calm cap 1 ends := by
  intro e he
  rw [Piece.stop]
  omega

theorem takeWhile_fits_append (cap width : Nat) (ends : List Nat)
    (ps : List Piece) :
    ps.takeWhile (·.Fits cap width ends) ++
        (ps.takeWhile (·.bytes.length ≤ cap)).dropWhile (·.Calm cap width ends) =
      ps.takeWhile (·.bytes.length ≤ cap) := by
  have h : ps.takeWhile (·.Fits cap width ends) =
      (ps.takeWhile (·.bytes.length ≤ cap)).takeWhile
        (·.Calm cap width ends) := by
    rw [List.takeWhile_takeWhile]
    refine congrArg (List.takeWhile · ps) (funext fun p => ?_)
    rw [Bool.eq_iff_iff, decide_eq_true_eq]
    simp [Piece.Fits, and_comm]
  rw [h, List.takeWhile_append_dropWhile]

theorem forall_fits_iff (cap width : Nat) (ends : List Nat) (ps : List Piece) :
    (∀ p ∈ ps, p.Fits cap width ends) ↔
      (∀ p ∈ ps, p.bytes.length ≤ cap) ∧
        (ps.takeWhile (·.bytes.length ≤ cap)).dropWhile
          (·.Calm cap width ends) = [] := by
  constructor
  · intro h
    refine ⟨fun p hp => (h p hp).1, List.dropWhile_eq_nil_iff.2 fun p hp => ?_⟩
    exact decide_eq_true (h p ((List.takeWhile_prefix _).subset hp)).2
  · rintro ⟨hshort, hcalm⟩ p hp
    have htake : ps.takeWhile (·.bytes.length ≤ cap) = ps :=
      List.takeWhile_eq_self_iff.2 fun q hq => decide_eq_true (hshort q hq)
    rw [htake] at hcalm
    exact ⟨hshort p hp,
      of_decide_eq_true (List.dropWhile_eq_nil_iff.1 hcalm p hp)⟩

theorem capped_map_bytes (cap : Nat) (ps : List Piece) :
    capped cap (ps.map Piece.bytes) =
      (statements ((ps.takeWhile (·.bytes.length ≤ cap)).map
          Piece.bytes)).map .ok ++
        if ∀ p ∈ ps, p.bytes.length ≤ cap then []
        else [.error (.statementTooLarge cap)] := by
  rw [capped, List.takeWhile_map]
  simp only [List.forall_mem_map]
  rfl

/-- The outcomes are what the cap leaves of the pieces, unless a statement
stands behind the first piece that is not calm, or no piece is too long. -/
theorem outcomes_none_eq_capped_iff (cap width : Nat) (ends : List Nat)
    (ps : List Piece) :
    outcomes cap width ends none ps = capped cap (ps.map Piece.bytes) ↔
      ∀ p ∈ (ps.takeWhile (·.bytes.length ≤ cap)).dropWhile
          (·.Calm cap width ends),
        Ascii.trim p.bytes = [] ∧ ∃ q ∈ ps, cap < q.bytes.length := by
  have hfits := forall_fits_iff cap width ends ps
  have hsplit := takeWhile_fits_append cap width ends ps
  rw [outcomes_none, capped_map_bytes]
  generalize (ps.takeWhile (·.bytes.length ≤ cap)).dropWhile
    (·.Calm cap width ends) = back at hfits hsplit ⊢
  rw [← hsplit, List.map_append, statements_append, List.map_append,
    List.append_assoc, List.append_cancel_left_eq]
  by_cases hback : back = []
  · subst hback
    simp only [and_true] at hfits
    simp only [hfits]
    simp
  · have hnot : ¬ ∀ p ∈ ps, p.Fits cap width ends :=
      fun h => hback (hfits.1 h).2
    obtain ⟨p, hp⟩ := List.exists_mem_of_ne_nil back hback
    rw [if_neg hnot]
    by_cases hshort : ∀ q ∈ ps, q.bytes.length ≤ cap
    · -- Nothing is too long, but the results end in a fault.
      refine iff_of_false (fun h => ?_) fun h => ?_
      · have hmem : (.error (.statementTooLarge cap) : Yield) ∈
            (statements (back.map Piece.bytes)).map Except.ok := by
          rw [if_pos hshort, List.append_nil] at h
          rw [← h]
          exact List.mem_singleton_self _
        obtain ⟨_, _, hbad⟩ := List.mem_map.1 hmem
        cases hbad
      · obtain ⟨q, hq, hlong⟩ := (h p hp).2
        exact Nat.not_le.2 hlong (hshort q hq)
    · -- The results end in a fault either way.
      have hlong : ∃ q ∈ ps, cap < q.bytes.length := by
        simpa using hshort
      rw [if_neg hshort, List.self_eq_append_left, List.map_eq_nil_iff,
        statements_eq_nil_iff]
      simp [hlong]

theorem outcomes_none_of_width_one (cap : Nat) (ends : List Nat)
    (ps : List Piece) :
    outcomes cap 1 ends none ps = capped cap (ps.map Piece.bytes) := by
  have hcalm : (ps.takeWhile (·.bytes.length ≤ cap)).dropWhile
      (·.Calm cap 1 ends) = [] := by
    refine List.dropWhile_eq_nil_iff.2 fun p hp => ?_
    have hshort := List.mem_takeWhile_imp hp
    exact decide_eq_true (calm_of_width_one (of_decide_eq_true hshort) ends)
  refine (outcomes_none_eq_capped_iff cap 1 ends ps).2 fun p hp => ?_
  rw [hcalm] at hp
  cases hp

end Script

open Script

namespace Splitter

/-- A script that is read without a failure. What its pieces that fit lead to is
what the cap leaves of all its pieces if and only if, among those in front of the
first one that is too long, there is none that is not calm, or those from the
first such one on are blank and some piece is too long. -/
theorem results_eq_capped_iff {source : Source} (hfault : source.fault? = none)
    {delimiter : List UInt8} (hd : delimiter ≠ []) (cap : Nat) :
    let width := delimiter.length
    let ends := source.readEnds chunkSize 0
    let ps := located width 0 (pieces delimiter source.content)
    let results := (start source delimiter cap).results
    results =
        (statements ((ps.takeWhile (·.Fits cap width ends)).map
          Piece.bytes)).map .ok ++
        (if ∀ p ∈ ps, p.Fits cap width ends then []
          else [.error (.statementTooLarge cap)]) ∧
    (results = capped cap (pieces delimiter source.content) ↔
      ∀ p ∈ (ps.takeWhile (·.bytes.length ≤ cap)).dropWhile
          (·.Calm cap width ends),
        Ascii.trim p.bytes = [] ∧ ∃ q ∈ ps, cap < q.bytes.length) := by
  intro width ends ps results
  have hres : results = outcomes cap width ends none ps :=
    hfault ▸ results_start_of_ne_nil source hd cap
  refine ⟨hres.trans (outcomes_none cap width ends ps), ?_⟩
  have hcap := outcomes_none_eq_capped_iff cap width ends ps
  rwa [← hres, map_bytes_located] at hcap

/-- Reads that end inside a delimiter are of no consequence under a cap that
leaves room for its first byte. -/
theorem results_eq_capped_of_room :
    let source : Source := [.bytes [0x61, 0x62, 0x63, 0x64, 0x2D],
      .bytes [0x2D, 0x47, 0x4F, 0x2D, 0x2D]]
    let delimiter := [0x2D, 0x2D, 0x47, 0x4F, 0x2D, 0x2D]
    (start source delimiter 5).results =
      capped 5 (pieces delimiter source.content) :=
  (results_eq_capped_iff rfl (by decide) 5).2.2 (by decide +kernel)

/-- The same bytes, none of whose pieces is longer than the cap, read at once
and in two halves. -/
theorem results_depend_on_reads :
    let atOnce : Source :=
      [.bytes [0x61, 0x62, 0x63, 0x64, 0x2D, 0x2D, 0x47, 0x4F, 0x2D, 0x2D]]
    let halves : Source := [.bytes [0x61, 0x62, 0x63, 0x64, 0x2D],
      .bytes [0x2D, 0x47, 0x4F, 0x2D, 0x2D]]
    let delimiter := [0x2D, 0x2D, 0x47, 0x4F, 0x2D, 0x2D]
    atOnce.content = halves.content ∧
    (∀ p ∈ pieces delimiter halves.content, p.length ≤ 4) ∧
    (start atOnce delimiter 4).results = [.ok [0x61, 0x62, 0x63, 0x64]] ∧
    (start halves delimiter 4).results = [.error (.statementTooLarge 4)] := by
  intro atOnce halves delimiter
  have hatOnce : pieces delimiter atOnce.content =
      [[0x61, 0x62, 0x63, 0x64], []] := by decide +kernel
  have hhalves : pieces delimiter halves.content =
      [[0x61, 0x62, 0x63, 0x64], []] := by decide +kernel
  have hendsAtOnce : atOnce.readEnds chunkSize 0 = [10] := by decide +kernel
  have hendsHalves : halves.readEnds chunkSize 0 = [5, 10] := by decide +kernel
  have hd : delimiter ≠ [] := by decide
  refine ⟨rfl, ?_, ?_, ?_⟩
  · rw [hhalves]
    decide
  · rw [results_start_of_ne_nil atOnce hd, hatOnce, hendsAtOnce]
    rfl
  · rw [results_start_of_ne_nil halves hd, hhalves, hendsHalves]
    rfl

/-- A delimiter of one byte makes the cap exact, however the script is read. -/
theorem results_start_singleton {source : Source} (hfault : source.fault? = none)
    (c : UInt8) (cap : Nat) :
    (start source [c] cap).results = capped cap (source.content.splitOn c) := by
  rw [results_start_of_ne_nil source (List.cons_ne_nil c []), hfault,
    List.length_singleton, outcomes_none_of_width_one, map_bytes_located,
    pieces_singleton]

end Splitter

end SchemaLedger
