import SchemaLedger.Proofs.Script.Laziness
/-!
# What a splitter holds, and that it comes to an end

A splitter on its way holds the bytes that it has read behind the last delimiter, and
`scanFrom` says how many of them cannot begin a delimiter. `Scanned` is this promise of
`scanFrom`: it lies inside the bytes held, and no delimiter begins before it. A cut
makes it trivial again, and a read moves it to where a delimiter could straddle the
bytes held and those that arrive.

Nothing is lost by cutting: `intercalate_pieces` puts a script together again from its
pieces, and from this `Live.consumed_eq` finds what has been read as the pieces cut off,
with their delimiters, and the bytes held. With the bound `weight` for what is left to
do, this is `iteration_sound`.
-/

namespace SchemaLedger

namespace Script

theorem intercalate_append (delimiter : List UInt8) (ps : List (List UInt8))
    {qs : List (List UInt8)} (hq : qs ≠ []) :
    delimiter.intercalate (ps ++ qs) =
      ps.flatMap (· ++ delimiter) ++ delimiter.intercalate qs := by
  induction ps with
  | nil => rfl
  | cons p ps ih =>
      rw [List.cons_append, List.intercalate_cons_of_ne_nil (by simp [hq]), ih,
        List.flatMap_cons]
      simp only [List.append_assoc]

/-- A script is its pieces with the delimiter between them. -/
theorem intercalate_pieces {delimiter : List UInt8} (hd : delimiter ≠ [])
    (bs : List UInt8) : delimiter.intercalate (pieces delimiter bs) = bs := by
  induction hn : bs.length using Nat.strongRecOn generalizing bs with
  | ind n ih =>
      subst hn
      cases hf : findBytes delimiter bs with
      | none => rw [pieces_of_findBytes_eq_none hd hf, List.intercalate_singleton]
      | some k =>
          have hle := length_le_of_findBytes hf
          have hpos := List.length_pos_iff.2 hd
          have hfound : (bs.drop k).take delimiter.length = delimiter :=
            (List.prefix_iff_eq_take.1 (prefix_drop_of_findBytes hf)).symm
          have hrest := ih (bs.drop (k + delimiter.length)).length
            (by rw [List.length_drop]; omega) _ rfl
          rw [pieces_of_findBytes_eq_some hd hf,
            List.intercalate_cons_of_ne_nil (pieces_ne_nil _ _), hrest]
          calc bs.take k ++ delimiter ++ bs.drop (k + delimiter.length)
              = bs.take k ++ ((bs.drop k).take delimiter.length ++
                  (bs.drop k).drop delimiter.length) := by
                rw [hfound, List.drop_drop, List.append_assoc]
            _ = bs := by rw [List.take_append_drop, List.take_append_drop]

end Script

namespace Splitter

open Script

/-- No delimiter begins where the search does not look. -/
structure Scanned (s : Splitter) : Prop where
  scanFrom_le : s.scanFrom ≤ s.buffer.length
  not_isPrefix : ∀ m < s.scanFrom, ¬ s.delimiter <+: s.buffer.drop m

section Scanned

variable {s : Splitter}

theorem scanned_of_scanFrom_eq_zero (h : s.scanFrom = 0) : s.Scanned where
  scanFrom_le := by simp [h]
  not_isPrefix := by simp [h]

theorem Scanned.sound (h : s.Scanned) : s.Sound :=
  (findBytes_eq_map_drop s.delimiter_ne_nil h.not_isPrefix).symm

/-- After a search in vain, only the last bytes held can begin a delimiter. -/
theorem Scanned.fed (h : s.Scanned) (hd : s.delimiterAt? = none) (bs : List UInt8)
    (source : Source) : (s.fed bs source).Scanned := by
  have hfind : findBytes s.delimiter s.buffer = none := h.sound ▸ hd
  have hpos := List.length_pos_iff.2 s.delimiter_ne_nil
  refine ⟨?_, fun m hm => ?_⟩
  · simp only [Splitter.fed, List.length_append]
    omega
  · have hm : m < s.buffer.length - (s.delimiter.length - 1) := hm
    have hnone : ¬ s.delimiter <+: s.buffer.drop m :=
      (findBytes_eq_none_iff s.delimiter_ne_nil).1 hfind m
    have hfits : m + s.delimiter.length ≤ s.buffer.length := by omega
    exact mt (prefix_drop_append_iff hfits).1 hnone

/-- A turn keeps the promise, or ends the iteration. -/
theorem Scanned.step {t : Turn} (h : s.Scanned) (ht : s.Takes t) :
    t.after.finished = true ∨ t.after.Scanned := by
  cases ht with
  | rests hf => exact .inl hf
  | refuses | closes | fails => exact .inl rfl
  | cuts => exact .inr (scanned_of_scanFrom_eq_zero rfl)
  | feeds _ hd => exact .inr (h.fed hd _ _)

theorem turn_after_of_finished (h : s.finished = true) : s.turn.after = s := by
  rw [turn, if_pos h]

theorem Scanned.after (h : s.Scanned) (n : Nat) :
    (s.after n).finished = true ∨ (s.after n).Scanned := by
  induction n with
  | zero => exact .inr h
  | succ n ih =>
      rw [after_succ]
      rcases ih with hf | hn
      · rw [turn_after_of_finished hf]
        exact .inl hf
      · exact hn.step (takes_turn _)

end Scanned

section Live

variable {s₀ s : Splitter} {ts : List Turn} {o : Nat} {front : List Piece}
  {past : List Nat}

/-- The pieces that have been cut off are the first ones of the script. -/
theorem Live.pieces_eq (h : Live s₀ ts s o front past) :
    pieces s₀.delimiter (s₀.buffer ++ s₀.pending) =
      front.map Piece.bytes ++ pieces s₀.delimiter (s.buffer ++ s.pending) := by
  have hcut := congrArg (List.map Piece.bytes) h.cut
  rwa [List.map_append, ahead, ahead, map_bytes_located, map_bytes_located,
    h.delimiter_eq] at hcut

/-- What has been read is the pieces cut off, a delimiter behind each, and the bytes
held. -/
theorem Live.consumed_eq (h : Live s₀ ts s o front past) (hb : s₀.buffer = []) :
    consumed ts =
      (front.map Piece.bytes).flatMap (· ++ s₀.delimiter) ++ s.buffer := by
  have hpieces := h.pieces_eq
  rw [hb, List.nil_append] at hpieces
  have hscript : s₀.pending = (front.map Piece.bytes).flatMap (· ++ s₀.delimiter) ++
      (s.buffer ++ s.pending) := by
    rw [← intercalate_pieces s₀.delimiter_ne_nil s₀.pending, hpieces,
      intercalate_append _ _ (pieces_ne_nil _ _),
      intercalate_pieces s₀.delimiter_ne_nil]
  have hboth : consumed ts ++ s.pending =
      (front.map Piece.bytes).flatMap (· ++ s₀.delimiter) ++ s.buffer ++ s.pending := by
    rw [h.script, hscript, List.append_assoc]
  exact List.append_cancel_right hboth

end Live

theorem finished_next {s : Splitter}
    (h : s.next.1 = none ∨ ∃ fault, s.next.1 = some (.error fault)) :
    s.next.2.finished = true := by
  fun_induction next s with
  | case1 s hf => exact hf
  | case2 | case5 | case6 | case7 => rfl
  | case3 s hf offset hd hcap statement hs ih => exact ih h
  | case4 => simp at h
  | case8 s hf hd hcap he bs source hr ih => exact ih h

theorem calls_of_finished {s : Splitter} (h : s.finished = true) (k : Nat) :
    (s.calls k).1 = List.replicate k none := by
  induction k with
  | zero => rfl
  | succ k ih =>
      rw [calls, next_of_finished h, List.replicate_succ]
      dsimp only
      rw [ih]

theorem none_mem_calls {s : Splitter} {k : Nat} (hk : s.weight < k) :
    none ∈ (s.calls k).1 := by
  induction k generalizing s with
  | zero => exact absurd hk (Nat.not_lt_zero _)
  | succ k ih =>
      rw [calls]
      cases hy : s.next.1 with
      | none => exact List.mem_cons_self
      | some y =>
          have hlt := weight_next_lt (s := s) (by rw [hy]; rfl)
          exact List.mem_cons_of_mem _ (ih (by omega))

theorem pairwise_calls (s : Splitter) (k : Nat) :
    (s.calls k).1.Pairwise fun y z =>
      (y = none ∨ ∃ fault, y = some (.error fault)) → z = none := by
  induction k generalizing s with
  | zero => exact List.Pairwise.nil
  | succ k ih =>
      refine List.pairwise_cons.2 ⟨fun z hz hy => ?_, ih _⟩
      rw [calls_of_finished (finished_next hy)] at hz
      exact List.eq_of_mem_replicate hz

/-- What a splitter holds is a true account of what it has read, and its iteration comes
to an end. It is observed after any number of turns, hence after any number of calls: no
search and no cut reaches beyond the bytes held, and every call and the iteration as a
whole are made of boundedly many turns. -/
theorem iteration_sound (source : Source) (delimiter : List UInt8) (cap : Nat) :
    let d := if delimiter = [] then semicolon else delimiter
    let s₀ := start source delimiter cap
    (∀ k, ∃ n, s₀.calls k = (returns (s₀.history n), s₀.after n)) ∧
    (∀ n,
      let s := s₀.after n
      (s.finished = false →
        s.delimiter = d ∧ s.scanFrom ≤ s.buffer.length ∧
        (∀ m < s.scanFrom, ¬ d <+: s.buffer.drop m) ∧
        (∀ m, s.delimiterAt? = some m → m + d.length ≤ s.buffer.length) ∧
        ∃ cut, cut <+: pieces d source.content ∧
          returns (s₀.history n) = (statements cut).map (fun st => some (.ok st)) ∧
          consumed (s₀.history n) = cut.flatMap (· ++ d) ++ s.buffer) ∧
      ∃ m ≤ 2 * s.source.size + s.buffer.length + 3,
        [s.next.1] = returns (s.history m) ∧ s.next.2 = s.after m) ∧
    none ∈ (s₀.calls (2 * source.size + 3)).1 ∧
    ∀ k, (s₀.calls k).1.Pairwise fun y z =>
      (y = none ∨ ∃ fault, y = some (.error fault)) → z = none := by
  intro d s₀
  have hs₀ : s₀ = _ := start_eq source delimiter cap
  have hb : s₀.buffer = [] := by rw [hs₀]
  have hscan : s₀.scanFrom = 0 := by rw [hs₀]
  have hd₀ : s₀.delimiter = d := delimiter_start source delimiter cap
  have hcontent : s₀.pending = source.content := by rw [hs₀]; rfl
  refine ⟨s₀.exists_calls_eq, fun n => ⟨fun hf => ?_, ?_⟩, none_mem_calls ?_,
    s₀.pairwise_calls⟩
  · have hscanned := ((scanned_of_scanFrom_eq_zero hscan).after n).resolve_left
      (by simp [hf])
    rcases live_or_over (by rw [hs₀]) hb hscan n with ⟨o, front, past, h⟩ | h
    · have hd := h.delimiter_eq.trans hd₀
      have hpieces := h.pieces_eq
      have hconsumed := h.consumed_eq hb
      rw [hb, List.nil_append, hcontent, hd₀] at hpieces
      rw [hd₀] at hconsumed
      refine ⟨hd, hscanned.scanFrom_le, hd ▸ hscanned.not_isPrefix,
        fun m hm => hd ▸ length_le_of_delimiterAt? hm, front.map Piece.bytes, ?_,
        h.returned, hconsumed⟩
      rw [hpieces]
      exact List.prefix_append _ _
    · exact absurd h.finished (by simp [hf])
  · obtain ⟨m, hm, hnext⟩ := (s₀.after n).exists_next_eq
    refine ⟨m, hm.trans ?_, hnext⟩
    have hend := Bool.toNat_le (!(s₀.after n).atEnd)
    have hfin := Bool.toNat_le (!(s₀.after n).finished)
    rw [weight]
    omega
  · rw [hs₀]
    simp [weight]

/-- The second read completes a delimiter that begins in the last byte of the first one,
and the search goes on from there. -/
theorem iteration_sound_of_straddling_delimiter :
    let s₀ := start [.bytes [0x61, 0x2F], .interrupted, .bytes [0x2F, 0x62]]
      [0x2F, 0x2F] 9
    (s₀.after 2).finished = false ∧ (s₀.after 2).scanFrom = 1 ∧
    (∀ m < 1, ¬ [0x2F, 0x2F] <+: (s₀.after 2).buffer.drop m) ∧
    (∃ cut : List (List UInt8),
      consumed (s₀.history 3) = cut.flatMap (· ++ [0x2F, 0x2F]) ++ [0x62]) ∧
    none ∈ (s₀.calls 11).1 := by
  intro s₀
  have hsound := iteration_sound [.bytes [0x61, 0x2F], .interrupted, .bytes [0x2F, 0x62]]
    [0x2F, 0x2F] 9
  have hf : (s₀.after 2).finished = false := by rfl
  obtain ⟨_, _, hscanned, _⟩ := (hsound.2.1 2).1 hf
  obtain ⟨_, _, _, _, cut, _, _, hconsumed⟩ := (hsound.2.1 3).1 (by rfl)
  exact ⟨hf, by rfl, hscanned, ⟨cut, hconsumed⟩, hsound.2.2.1⟩

end Splitter

end SchemaLedger
