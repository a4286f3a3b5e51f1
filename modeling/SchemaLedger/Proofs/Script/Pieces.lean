import SchemaLedger.Proofs.Script.Search
/-!
# The pieces of a script

`pieces delimiter bs` cuts a whole script at the leftmost occurrences of the
delimiter that do not overlap, in one pass over its bytes: where a delimiter
begins, a piece ends and the delimiter is left out; everywhere else the byte
belongs to the piece that is being read. The last piece has no delimiter behind
it. This is the meaning of a script that the splitter is compared with, so it
knows nothing of buffers and reads.

`located width o ps` says where the pieces lie when the first of them begins at
offset `o` and delimiters are `width` bytes long. The bridge lemmas relate the
one pass to a search, and the pieces of a script to those of its beginnings.
-/

namespace SchemaLedger

namespace Script

/-- The pieces of a script between its delimiters. -/
def pieces (delimiter bs : List UInt8) : List (List UInt8) :=
  if _h : delimiter ≠ [] ∧ delimiter <+: bs then
    [] :: pieces delimiter (bs.drop delimiter.length)
  else
    match bs with
    | [] => [[]]
    | b :: rest => (pieces delimiter rest).modifyHead (b :: ·)
termination_by bs.length
decreasing_by
  · have := List.length_pos_iff.2 _h.1
    have := _h.2.length_le
    rw [List.length_drop]
    omega
  · simp

/-- The statements in some pieces: each piece is trimmed, and those of which
nothing is left are dropped. -/
def statements (ps : List (List UInt8)) : List (List UInt8) :=
  (ps.map Ascii.trim).filter (· ≠ [])

@[simp] theorem statements_nil : statements [] = [] := rfl

theorem statements_cons (p : List UInt8) (ps : List (List UInt8)) :
    statements (p :: ps) = statements [p] ++ statements ps := by
  simp only [statements, List.map_cons, List.map_nil]
  rw [← List.singleton_append, List.filter_append]

theorem statements_singleton (p : List UInt8) :
    statements [p] = if Ascii.trim p = [] then [] else [Ascii.trim p] := by
  by_cases h : Ascii.trim p = [] <;> simp [statements, h]

theorem statements_append (ps qs : List (List UInt8)) :
    statements (ps ++ qs) = statements ps ++ statements qs := by
  simp [statements]

theorem statements_eq_nil_iff {ps : List (List UInt8)} :
    statements ps = [] ↔ ∀ p ∈ ps, Ascii.trim p = [] := by
  simp [statements]

theorem statements_isPrefix {ps qs : List (List UInt8)} (h : ps <+: qs) :
    statements ps <+: statements qs :=
  (h.map _).filter _

theorem pieces_of_isPrefix {delimiter bs : List UInt8} (hd : delimiter ≠ [])
    (h : delimiter <+: bs) :
    pieces delimiter bs = [] :: pieces delimiter (bs.drop delimiter.length) := by
  rw [pieces, dif_pos ⟨hd, h⟩]

theorem pieces_cons_of_not_isPrefix {delimiter rest : List UInt8} {b : UInt8}
    (h : ¬ delimiter <+: b :: rest) :
    pieces delimiter (b :: rest) =
      (pieces delimiter rest).modifyHead (b :: ·) := by
  rw [pieces, dif_neg fun h' => h h'.2]

theorem pieces_nil {delimiter : List UInt8} (hd : delimiter ≠ []) :
    pieces delimiter [] = [[]] := by
  rw [pieces, dif_neg fun h => hd (List.prefix_nil.1 h.2)]

theorem pieces_ne_nil (delimiter bs : List UInt8) : pieces delimiter bs ≠ [] := by
  fun_induction pieces delimiter bs with
  | case1 => simp
  | case2 => simp
  | case3 b rest _ ih => simpa [List.modifyHead_eq_nil_iff] using ih

theorem pieces_of_findBytes_eq_none {delimiter bs : List UInt8}
    (hd : delimiter ≠ []) (h : findBytes delimiter bs = none) :
    pieces delimiter bs = [bs] := by
  induction bs with
  | nil => exact pieces_nil hd
  | cons b rest ih =>
      have hnone := (findBytes_eq_none_iff hd).1 h
      have hrest : findBytes delimiter rest = none :=
        (findBytes_eq_none_iff hd).2 fun m => hnone (m + 1)
      rw [pieces_cons_of_not_isPrefix (hnone 0), ih hrest]
      rfl

theorem pieces_of_findBytes_eq_some {delimiter bs : List UInt8} {n : Nat}
    (hd : delimiter ≠ []) (h : findBytes delimiter bs = some n) :
    pieces delimiter bs =
      bs.take n :: pieces delimiter (bs.drop (n + delimiter.length)) := by
  induction bs generalizing n with
  | nil => simp [findBytes, hd] at h
  | cons b rest ih =>
      by_cases hpre : delimiter <+: b :: rest
      · have h0 : findBytes delimiter (b :: rest) = some 0 :=
          (findBytes_eq_some_iff hd).2 ⟨hpre, by simp⟩
        obtain rfl : 0 = n := by simpa [h0] using h
        rw [pieces_of_isPrefix hd hpre, Nat.zero_add, List.take_zero]
      · rw [findBytes, if_neg fun hb => hpre (List.isPrefixOf_iff_prefix.1 hb)]
          at h
        obtain ⟨m, hm, rfl⟩ := Option.map_eq_some_iff.1 h
        rw [pieces_cons_of_not_isPrefix hpre, ih hm, Nat.add_right_comm]
        rfl

/-- A delimiter of one byte cuts where that byte stands. -/
theorem pieces_singleton (c : UInt8) (bs : List UInt8) :
    pieces [c] bs = bs.splitOn c := by
  induction bs with
  | nil => rw [pieces_nil (by simp), List.splitOn_nil]
  | cons b rest ih =>
      rw [List.splitOn_cons_eq_if_modifyHead]
      by_cases hb : b = c
      · subst hb
        rw [pieces_of_isPrefix (by simp) (by simp), if_pos (by simp), ← ih]
        rfl
      · rw [pieces_cons_of_not_isPrefix (by simpa using Ne.symm hb), ih,
          if_neg (by simpa using hb)]

structure Piece where
  start : Nat
  bytes : List UInt8
  deriving DecidableEq, Repr

/-- The offset at which the delimiter behind a piece ends, if one is there. -/
def Piece.stop (width : Nat) (p : Piece) : Nat :=
  p.start + p.bytes.length + width

@[simp] theorem stop_mk (width o : Nat) (p : List UInt8) :
    Piece.stop width ⟨o, p⟩ = o + p.length + width := rfl

/-- Where pieces lie, the first of them at offset `o`. -/
def located (width : Nat) : Nat → List (List UInt8) → List Piece
  | _, [] => []
  | o, p :: ps => ⟨o, p⟩ :: located width (o + p.length + width) ps

@[simp] theorem located_nil (width o : Nat) : located width o [] = [] := rfl

theorem located_cons (width o : Nat) (p : List UInt8) (ps : List (List UInt8)) :
    located width o (p :: ps) =
      ⟨o, p⟩ :: located width (o + p.length + width) ps := rfl

theorem map_bytes_located (width o : Nat) (ps : List (List UInt8)) :
    (located width o ps).map Piece.bytes = ps := by
  induction ps generalizing o with
  | nil => rfl
  | cons p ps ih => rw [located_cons, List.map_cons, ih]

theorem located_eq_nil_iff {width o : Nat} {ps : List (List UInt8)} :
    located width o ps = [] ↔ ps = [] := by
  cases ps <;> simp [located]

theorem dropLast_located (width o : Nat) (ps : List (List UInt8)) :
    (located width o ps).dropLast = located width o ps.dropLast := by
  induction ps generalizing o with
  | nil => rfl
  | cons p ps ih =>
      cases ps with
      | nil => rfl
      | cons q ps =>
          rw [located_cons, located_cons, List.dropLast_cons_cons, ← located_cons,
            ih, List.dropLast_cons_cons, located_cons]

theorem le_start_of_mem_located {width o : Nat} {ps : List (List UInt8)}
    {p : Piece} (h : p ∈ located width o ps) : o ≤ p.start := by
  induction ps generalizing o with
  | nil => simp at h
  | cons q ps ih =>
      rcases List.mem_cons.1 h with rfl | h
      · exact Nat.le_refl _
      · have := ih h
        omega

/-- The pieces with delimiters that end by some offset are the first ones. -/
theorem filter_located_isPrefix (width o e : Nat) (ps : List (List UInt8)) :
    (located width o ps).filter (·.stop width ≤ e) <+: located width o ps := by
  induction ps generalizing o with
  | nil => exact List.prefix_refl _
  | cons p ps ih =>
      rw [located_cons]
      by_cases hp : Piece.stop width ⟨o, p⟩ ≤ e
      · rw [List.filter_cons_of_pos (by rwa [decide_eq_true_eq])]
        exact (List.prefix_cons_inj _).2 (ih _)
      · have hrest : (located width (o + p.length + width) ps).filter
            (·.stop width ≤ e) = [] := by
          refine List.filter_eq_nil_iff.2 fun q hq => ?_
          have := le_start_of_mem_located hq
          rw [stop_mk] at hp
          rw [decide_eq_true_eq, Piece.stop]
          omega
        rw [List.filter_cons_of_neg (by rwa [decide_eq_true_eq]), hrest]
        exact List.nil_prefix

theorem start_of_mem_located_pieces {delimiter front more : List UInt8}
    {o : Nat} {p : Piece} (hd : delimiter ≠ [])
    (hf : findBytes delimiter front = none)
    (hp : p ∈ located delimiter.length o (pieces delimiter (front ++ more))) :
    p.start = o ∨ o + front.length < p.start := by
  cases hg : findBytes delimiter (front ++ more) with
  | none =>
      rw [pieces_of_findBytes_eq_none hd hg] at hp
      rcases List.mem_singleton.1 hp with rfl
      exact Or.inl rfl
  | some k =>
      have hlt := length_lt_of_findBytes_append hd hf hg
      have hle := length_le_of_findBytes hg
      rw [pieces_of_findBytes_eq_some hd hg, located_cons] at hp
      rcases List.mem_cons.1 hp with rfl | hp
      · exact Or.inl rfl
      · have := le_start_of_mem_located hp
        rw [List.length_take] at this
        right
        omega

theorem length_lt_stop_of_mem_dropLast_located {delimiter front more : List UInt8}
    {o : Nat} {p : Piece} (hd : delimiter ≠ [])
    (hf : findBytes delimiter front = none)
    (hp : p ∈ (located delimiter.length o
      (pieces delimiter (front ++ more))).dropLast) :
    o + front.length < p.stop delimiter.length := by
  cases hg : findBytes delimiter (front ++ more) with
  | none => simp [pieces_of_findBytes_eq_none hd hg, located] at hp
  | some k =>
      have hlt := length_lt_of_findBytes_append hd hf hg
      have hle := length_le_of_findBytes hg
      rw [pieces_of_findBytes_eq_some hd hg, located_cons] at hp
      rcases List.mem_cons.1 (List.dropLast_subset _ hp) with rfl | hp
      · rw [stop_mk, List.length_take]
        omega
      · have := le_start_of_mem_located hp
        rw [List.length_take] at this
        rw [Piece.stop]
        omega

/-- The pieces that a delimiter follows, of a beginning of a script, are the
pieces of the script with delimiters that end inside the beginning. -/
theorem dropLast_located_pieces_of_isPrefix {delimiter front bs : List UInt8}
    (hd : delimiter ≠ []) (h : front <+: bs) (o : Nat) :
    (located delimiter.length o (pieces delimiter front)).dropLast =
      (located delimiter.length o (pieces delimiter bs)).dropLast.filter
        (·.stop delimiter.length ≤ o + front.length) := by
  induction hn : front.length using Nat.strongRecOn generalizing front bs o with
  | ind n ih =>
      subst hn
      obtain ⟨more, rfl⟩ := h
      cases hf : findBytes delimiter front with
      | none =>
          rw [pieces_of_findBytes_eq_none hd hf]
          refine (List.filter_eq_nil_iff.2 fun p hp => ?_).symm
          have := length_lt_stop_of_mem_dropLast_located hd hf hp
          simpa using this
      | some k =>
          have hle := length_le_of_findBytes hf
          have hpos := List.length_pos_iff.2 hd
          have htail : front.drop (k + delimiter.length) <+:
              (front ++ more).drop (k + delimiter.length) := by
            rw [List.drop_append_of_le_length hle]
            exact List.prefix_append _ _
          have hrest := ih _ (by rw [List.length_drop]; omega) htail
            (o + k + delimiter.length) rfl
          have hoff : o + k + delimiter.length +
              (front.drop (k + delimiter.length)).length = o + front.length := by
            rw [List.length_drop]
            omega
          have htake : (front.take k).length = k := by
            rw [List.length_take]
            omega
          rw [hoff] at hrest
          rw [pieces_of_findBytes_eq_some hd hf,
            pieces_of_findBytes_eq_some hd (findBytes_append_of_some hd hf more),
            List.take_append_of_le_length (by omega), located_cons, located_cons,
            htake, List.dropLast_cons_of_ne_nil, List.dropLast_cons_of_ne_nil,
            List.filter_cons_of_pos, hrest]
          · rw [stop_mk, htake, decide_eq_true_eq]
            omega
          · exact mt located_eq_nil_iff.1 (pieces_ne_nil _ _)
          · exact mt located_eq_nil_iff.1 (pieces_ne_nil _ _)

end Script

end SchemaLedger
