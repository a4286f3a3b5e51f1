import SchemaLedger.Connection.Path
import SchemaLedger.Proofs.Sql.Naming
import SchemaLedger.Proofs.Text.Escaping
/-!
# Paths as they are kept

The path of a URL outside the web is cut at its slashes, and its segments are put
together again one after the other. A dot segment leaves fewer segments than there
were, or an empty one at the end; any other segment is written with escapes. So the
path is kept as it is written if and only if there is no dot segment in it and nothing
to escape: `render_segments_eq_iff`.
-/

namespace SchemaLedger.Path

/-- The segment stands for this place or the one above it. -/
def IsDot (s : List Char) : Prop :=
  isSingleDot s = true ∨ isDoubleDot s = true

instance : DecidablePred IsDot := fun s =>
  inferInstanceAs (Decidable (isSingleDot s = true ∨ isDoubleDot s = true))

theorem not_isDot_nil : ¬ IsDot [] := by
  decide

theorem encode_keep_eq_self_iff {s : List Char} :
    Percent.encode keep s = s ↔ ∀ c ∈ s, keep c = true := by
  rw [Percent.encode_eq_self_iff]
  refine forall₂_congr fun c _ => and_iff_right_of_imp fun h => ?_
  simp only [keep, Bool.and_eq_true, decide_eq_true_eq] at h
  omega

/-! ## Cutting and joining -/

theorem cut_other (s : List Char) : cut .other s = Sql.cut '/' s := by
  induction s with
  | nil => rfl
  | cons c s ih =>
      have hslash : SchemeKind.other.isSlash c = true ↔ c = '/' := by
        simp [SchemeKind.isSlash, SchemeKind.isSpecial]
      rw [cut, ih, Sql.cut]
      by_cases hc : c = '/'
      · rw [if_pos (hslash.2 hc), if_pos hc]
      · refine (if_neg (mt hslash.1 hc)).trans (Eq.trans ?_ (if_neg hc).symm)
        cases Sql.cut '/' s <;> rfl

theorem render_eq_cons_intercalate {segments : List (List Char)} (h : segments ≠ []) :
    render segments = '/' :: ['/'].intercalate segments := by
  induction segments with
  | nil => exact absurd rfl h
  | cons s rest ih =>
      cases rest with
      | nil => simp
      | cons next rest =>
          rw [render_cons, ih (List.cons_ne_nil _ _), List.intercalate_cons_cons,
            List.cons_append, List.append_assoc, List.singleton_append]

theorem render_cut (s : List Char) : render (Sql.cut '/' s) = '/' :: s := by
  rw [render_eq_cons_intercalate (Sql.cut_ne_nil '/' s), Sql.cut_eq_splitOn,
    List.intercalate_splitOn]

theorem cut_render {segments : List (List Char)} (h : ∀ s ∈ segments, '/' ∉ s) :
    Sql.cut '/' (render segments) = [] :: segments := by
  by_cases hne : segments = []
  · rw [hne]
    rfl
  · rw [render_eq_cons_intercalate hne, Sql.cut, if_pos rfl, Sql.cut_intercalate hne h]

theorem encode_render (segments : List (List Char)) :
    Percent.encode keep (render segments) =
      render (segments.map (Percent.encode keep)) := by
  induction segments with
  | nil => rfl
  | cons s rest ih =>
      have hslash : Percent.encode keep ['/'] = ['/'] :=
        encode_keep_eq_self_iff.2 (List.forall_mem_singleton.2 (by decide))
      rw [List.map_cons, render_cons, render_cons, Percent.encode_append, ih,
        ← List.singleton_append, Percent.encode_append, hslash,
        List.singleton_append]

/-! ## Putting the segments together -/

variable {before segs : List (List Char)}

theorem resolve_cons_of_not_isDot {s : List Char} (h : ¬ IsDot s) :
    resolve .other before (s :: segs) =
      resolve .other (Percent.encode keep s :: before) segs := by
  obtain ⟨hsingle, hdouble⟩ := not_or.1 h
  have hkept : kept .other before s = Percent.encode keep s := rfl
  rw [resolve, if_neg hdouble, if_neg hsingle, hkept]

/-- A dot segment adds nothing, unless it is the last one, for which there is an empty
segment at the end. -/
theorem exists_resolve_cons_of_isDot {s : List Char} (h : IsDot s)
    (before segs : List (List Char)) :
    ∃ left, left.Sublist before ∧
      resolve .other before (s :: segs) =
        resolve .other (if segs = [] then [] :: left else left) segs := by
  have hends (left : List (List Char)) :
      (if segs.isEmpty then [[]] else []) ++ left =
        if segs = [] then [] :: left else left := by
    cases segs <;> rfl
  by_cases hdouble : isDoubleDot s = true
  · refine ⟨shorten .other before, ?_, by rw [resolve, if_pos hdouble, ← hends]⟩
    match before with
    | [] => exact List.Sublist.refl []
    | [s] => exact List.nil_sublist [s]
    | s :: next :: rest => exact List.sublist_cons_self s (next :: rest)
  · have hsingle : isSingleDot s = true := h.resolve_right hdouble
    exact ⟨before, List.Sublist.refl before,
      by rw [resolve, if_neg hdouble, if_pos hsingle, ← hends]⟩

theorem resolve_of_forall_not_isDot (h : ∀ s ∈ segs, ¬ IsDot s) :
    resolve .other before segs =
      (segs.map (Percent.encode keep)).reverse ++ before := by
  induction segs generalizing before with
  | nil => rfl
  | cons s rest ih =>
      obtain ⟨hs, hrest⟩ := List.forall_mem_cons.1 h
      rw [resolve_cons_of_not_isDot hs, ih hrest, List.map_cons, List.reverse_cons,
        List.append_assoc, List.singleton_append]

theorem length_resolve_le (before segs : List (List Char)) :
    (resolve .other before segs).length ≤ before.length + segs.length := by
  induction segs generalizing before with
  | nil => exact Nat.le_refl _
  | cons s rest ih =>
      rw [List.length_cons]
      by_cases hs : IsDot s
      · obtain ⟨left, hleft, hresolve⟩ :=
          exists_resolve_cons_of_isDot hs before rest
        have := hleft.length_le
        rw [hresolve]
        refine Nat.le_trans (ih _) ?_
        split
        · rw [List.length_cons]
          omega
        · omega
      · rw [resolve_cons_of_not_isDot hs]
        refine Nat.le_trans (ih _) ?_
        rw [List.length_cons]
        omega

/-- If no segment is lost and the last one is kept, there was no dot segment. -/
theorem forall_not_isDot_of_resolve (before : List (List Char))
    (hlength : (resolve .other before segs).length = before.length + segs.length)
    (hlast : (resolve .other before segs).head? = segs.getLast?) :
    ∀ s ∈ segs, ¬ IsDot s := by
  induction segs generalizing before with
  | nil => nofun
  | cons s rest ih =>
      rw [List.length_cons] at hlength
      by_cases hs : IsDot s
      · exfalso
        obtain ⟨left, hleft, hresolve⟩ :=
          exists_resolve_cons_of_isDot hs before rest
        cases rest with
        | nil =>
            rw [hresolve, if_pos rfl] at hlast
            obtain rfl : [] = s := Option.some.inj hlast
            exact not_isDot_nil hs
        | cons next rest =>
            rw [hresolve, if_neg (List.cons_ne_nil _ _)] at hlength
            have hle := length_resolve_le left (next :: rest)
            have := hleft.length_le
            omega
      · rw [resolve_cons_of_not_isDot hs] at hlength hlast
        refine List.forall_mem_cons.2 ⟨hs, ?_⟩
        cases rest with
        | nil => nofun
        | cons next rest =>
            refine ih _ ?_ hlast
            rw [hlength, List.length_cons (a := Percent.encode keep s)]
            omega

theorem forall_mem_resolve {P : List Char → Prop} (hnil : P [])
    (hbefore : ∀ s ∈ before, P s) (hsegs : ∀ s ∈ segs, P (Percent.encode keep s)) :
    ∀ s ∈ resolve .other before segs, P s := by
  induction segs generalizing before with
  | nil => exact hbefore
  | cons s rest ih =>
      obtain ⟨hfirst, hrest⟩ := List.forall_mem_cons.1 hsegs
      by_cases hs : IsDot s
      · obtain ⟨left, hleft, hresolve⟩ :=
          exists_resolve_cons_of_isDot hs before rest
        have hmem : ∀ s ∈ left, P s := fun s hs => hbefore s (hleft.subset hs)
        rw [hresolve]
        refine ih ?_ hrest
        split
        · exact List.forall_mem_cons.2 ⟨hnil, hmem⟩
        · exact hmem
      · rw [resolve_cons_of_not_isDot hs]
        exact ih (List.forall_mem_cons.2 ⟨hfirst, hbefore⟩) hrest

/-! ## The path as a whole -/

theorem segments_other (s : List Char) :
    segments .other s = (resolve .other [] (Sql.cut '/' s)).reverse := by
  rw [segments, cut_other]
  rfl

theorem render_segments_of_forall_not_isDot {s : List Char}
    (h : ∀ part ∈ Sql.cut '/' s, ¬ IsDot part) :
    render (segments .other s) = Percent.encode keep ('/' :: s) := by
  rw [segments_other, resolve_of_forall_not_isDot h, List.append_nil,
    List.reverse_reverse, ← encode_render, render_cut]

/-- Where the path is as it is written, its segments are. -/
theorem segments_eq_of_render {s : List Char}
    (h : render (segments .other s) = '/' :: s) :
    segments .other s = Sql.cut '/' s := by
  have hslash : ∀ part ∈ segments .other s, '/' ∉ part := by
    intro part hpart
    rw [segments_other, List.mem_reverse] at hpart
    revert part
    refine forall_mem_resolve List.not_mem_nil nofun fun part hpart hmem => ?_
    rcases Percent.mem_or_of_mem_encode hmem with hmem | h | h
    · exact Sql.not_mem_of_mem_cut hpart hmem
    · revert h
      decide
    · revert h
      decide
  have hcut := cut_render hslash
  rw [h, Sql.cut, if_pos rfl] at hcut
  exact (List.cons.inj hcut).2.symm

/-- A path is kept as it is written if and only if each of its characters is and none
of its segments is a dot. -/
theorem render_segments_eq_iff {s : List Char} :
    render (segments .other s) = '/' :: s ↔
      (∀ c ∈ s, keep c = true) ∧ ∀ part ∈ Sql.cut '/' s, ¬ IsDot part := by
  constructor
  · intro h
    have hsegments := segments_eq_of_render h
    have hresolve : resolve .other [] (Sql.cut '/' s) = (Sql.cut '/' s).reverse := by
      rw [← List.reverse_inj, ← segments_other, hsegments, List.reverse_reverse]
    have hdots : ∀ part ∈ Sql.cut '/' s, ¬ IsDot part := by
      refine forall_not_isDot_of_resolve [] ?_ ?_
      · rw [hresolve, List.length_reverse, List.length_nil, Nat.zero_add]
      · rw [hresolve, List.head?_reverse]
    rw [render_segments_of_forall_not_isDot hdots, encode_keep_eq_self_iff] at h
    exact ⟨(List.forall_mem_cons.1 h).2, hdots⟩
  · rintro ⟨hkeep, hdots⟩
    rw [render_segments_of_forall_not_isDot hdots, encode_keep_eq_self_iff]
    exact List.forall_mem_cons.2 ⟨by decide, hkeep⟩

end SchemaLedger.Path
