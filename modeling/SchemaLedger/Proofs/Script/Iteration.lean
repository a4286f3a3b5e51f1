import SchemaLedger.Proofs.Script.Outcomes
import SchemaLedger.Proofs.Script.Reads
import SchemaLedger.Script.Statements
/-!
# Iterating a splitter

`results s` is everything that a splitter hands out until it is over. It obeys
one equation for each turn of the splitter's loop: a delimiter is found, the
bytes held are too many, the source has ended, a read fails, or a read brings
more bytes. No other fact about the loop is used later.

The main lemma `results_eq_expected` follows the loop and finds the outcomes of
the pieces of the script. Its invariant is that the search, which begins at
`scanFrom`, finds what a search of all bytes held would find.
-/

namespace SchemaLedger

open Script

namespace Splitter

def results (s : Splitter) : List Yield :=
  match _h : s.next with
  | (none, _) => []
  | (some y, rest) => y :: results rest
termination_by s.weight
decreasing_by
  have := weight_next_lt (s := s) (by rw [_h]; rfl)
  rwa [_h] at this

theorem results_eq (s : Splitter) :
    s.results =
      match s.next.1 with
      | none => []
      | some y => y :: s.next.2.results := by
  rw [results]
  split
  · next heq => rw [heq]
  · next heq => rw [heq]

theorem results_congr {s t : Splitter} (h : s.next = t.next) :
    s.results = t.results := by
  rw [results_eq, h, ← results_eq]

theorem next_of_finished {s : Splitter} (h : s.finished = true) :
    s.next = (none, s) := by
  rw [next, if_pos h]

theorem next_of_delimiter {s : Splitter} {n : Nat} (hf : s.finished = false)
    (hd : s.delimiterAt? = some n) :
    s.next =
      if s.cap < n then (some (.error (.statementTooLarge s.cap)), s.stop)
      else if Ascii.trim (s.buffer.take n) = [] then (s.cutAt n).next
      else (some (.ok (Ascii.trim (s.buffer.take n))), s.cutAt n) := by
  rw [next, if_neg (by simp [hf])]
  split
  · next m hm =>
      rw [hd] at hm
      cases hm
      rfl
  · next hm => simp [hd] at hm

theorem next_of_no_delimiter {s : Splitter} (hf : s.finished = false)
    (hd : s.delimiterAt? = none) :
    s.next =
      if s.cap < s.buffer.length then
        (some (.error (.statementTooLarge s.cap)), s.stop)
      else if s.atEnd = true then
        (if Ascii.trim s.buffer = [] then none
          else some (.ok (Ascii.trim s.buffer)), s.stop)
      else
        match s.source.read chunkSize with
        | (.failed reason, source) =>
          (some (.error (.scriptUnreadable reason)), { s with source }.stop)
        | (.bytes bs, source) => (s.fed bs source).next := by
  rw [next, if_neg (by simp [hf])]
  split
  · next m hm => simp [hd] at hm
  · refine ite_congr rfl (fun _ => rfl) fun _ => ?_
    refine dite_congr rfl (fun _ => rfl) fun _ => ?_
    split
    · next hr => rw [hr]
    · next hr => rw [hr]

theorem results_of_finished {s : Splitter} (h : s.finished = true) :
    s.results = [] := by
  rw [results_eq, next_of_finished h]

@[simp] theorem results_stop (s : Splitter) : s.stop.results = [] :=
  results_of_finished rfl

theorem results_of_delimiter {s : Splitter} {n : Nat} (hf : s.finished = false)
    (hd : s.delimiterAt? = some n) :
    s.results =
      if s.cap < n then [.error (.statementTooLarge s.cap)]
      else (statements [s.buffer.take n]).map .ok ++ (s.cutAt n).results := by
  have hnext := next_of_delimiter hf hd
  rw [statements_singleton]
  split
  · next hcap =>
      rw [if_pos hcap] at hnext
      rw [results_eq, hnext]
      simp
  · next hcap =>
      rw [if_neg hcap] at hnext
      split
      · next htrim =>
          rw [if_pos htrim] at hnext
          rw [results_congr hnext, List.map_nil, List.nil_append]
      · next htrim =>
          rw [if_neg htrim] at hnext
          rw [results_eq, hnext]
          rfl

theorem results_of_overfull {s : Splitter} (hf : s.finished = false)
    (hd : s.delimiterAt? = none) (hcap : s.cap < s.buffer.length) :
    s.results = [.error (.statementTooLarge s.cap)] := by
  have hnext := next_of_no_delimiter hf hd
  rw [if_pos hcap] at hnext
  rw [results_eq, hnext]
  simp

theorem results_of_atEnd {s : Splitter} (hf : s.finished = false)
    (hd : s.delimiterAt? = none) (hcap : s.buffer.length ≤ s.cap)
    (he : s.atEnd = true) :
    s.results = (statements [s.buffer]).map .ok := by
  have hnext := next_of_no_delimiter hf hd
  rw [if_neg (Nat.not_lt.2 hcap), if_pos he] at hnext
  rw [results_eq, hnext, statements_singleton]
  by_cases htrim : Ascii.trim s.buffer = [] <;> simp [htrim]

theorem results_of_failed {s : Splitter} {reason : String} {source : Source}
    (hf : s.finished = false) (hd : s.delimiterAt? = none)
    (hcap : s.buffer.length ≤ s.cap) (he : s.atEnd = false)
    (hr : s.source.read chunkSize = (.failed reason, source)) :
    s.results = [.error (.scriptUnreadable reason)] := by
  have hnext := next_of_no_delimiter hf hd
  rw [if_neg (Nat.not_lt.2 hcap), if_neg (by simp [he]), hr] at hnext
  rw [results_eq, hnext]
  simp

theorem results_of_fed {s : Splitter} {bs : List UInt8} {source : Source}
    (hf : s.finished = false) (hd : s.delimiterAt? = none)
    (hcap : s.buffer.length ≤ s.cap) (he : s.atEnd = false)
    (hr : s.source.read chunkSize = (.bytes bs, source)) :
    s.results = (s.fed bs source).results := by
  have hnext := next_of_no_delimiter hf hd
  rw [if_neg (Nat.not_lt.2 hcap), if_neg (by simp [he]), hr] at hnext
  exact results_congr hnext

/-- The bytes that reads are still to bring. -/
def pending (s : Splitter) : List UInt8 :=
  if s.atEnd then [] else s.source.content

def fault? (s : Splitter) : Option String :=
  if s.atEnd then none else s.source.fault?

/-- The offsets at which the reads to come end, when the bytes held end at
offset `o`. -/
def readEnds (s : Splitter) (o : Nat) : List Nat :=
  if s.atEnd then [] else s.source.readEnds chunkSize o

/-- The pieces that are still to be handed out, when the bytes held begin at
offset `o` of the script. -/
def ahead (s : Splitter) (o : Nat) : List Piece :=
  located s.delimiter.length o (pieces s.delimiter (s.buffer ++ s.pending))

theorem ahead_ne_nil (s : Splitter) (o : Nat) : s.ahead o ≠ [] :=
  mt located_eq_nil_iff.1 (pieces_ne_nil _ _)

/-- The search finds what a search of all bytes held would find. -/
def Sound (s : Splitter) : Prop :=
  s.delimiterAt? = findBytes s.delimiter s.buffer

theorem sound_of_scanFrom_eq_zero {s : Splitter} (h : s.scanFrom = 0) :
    s.Sound := by
  rw [Sound, delimiterAt?, h, List.drop_zero]
  simp

theorem sound_cutAt (s : Splitter) (n : Nat) : (s.cutAt n).Sound :=
  sound_of_scanFrom_eq_zero rfl

/-- A search in vain need not be repeated when more bytes have arrived. -/
theorem sound_fed {s : Splitter} (hs : s.Sound) (hd : s.delimiterAt? = none)
    (bs : List UInt8) (source : Source) : (s.fed bs source).Sound :=
  (findBytes_append_of_none s.delimiter_ne_nil (hs ▸ hd) bs).symm

/-- The first delimiter that is held ends the first piece. -/
theorem ahead_of_delimiter {s : Splitter} {n : Nat} (hs : s.Sound)
    (hd : s.delimiterAt? = some n) (o : Nat) :
    s.ahead o =
      ⟨o, s.buffer.take n⟩ :: (s.cutAt n).ahead (o + n + s.delimiter.length) := by
  have hw := s.delimiter_ne_nil
  have hfind : findBytes s.delimiter s.buffer = some n := hs ▸ hd
  have hle := length_le_of_findBytes hfind
  have htake : (s.buffer.take n).length = n := by
    rw [List.length_take]
    omega
  rw [ahead, pieces_of_findBytes_eq_some hw
      (findBytes_append_of_some hw hfind s.pending), located_cons,
    List.take_append_of_le_length (by omega),
    List.drop_append_of_le_length hle, htake]
  rfl

theorem ahead_of_pending_eq_nil {s : Splitter} (hs : s.Sound)
    (hd : s.delimiterAt? = none) (hp : s.pending = []) (o : Nat) :
    s.ahead o = [⟨o, s.buffer⟩] := by
  have hfind : findBytes s.delimiter s.buffer = none := hs ▸ hd
  rw [ahead, hp, List.append_nil,
    pieces_of_findBytes_eq_none s.delimiter_ne_nil hfind]
  rfl

theorem pending_of_read {s : Splitter} {bs : List UInt8} {source : Source}
    (he : s.atEnd = false) (hr : s.source.read chunkSize = (.bytes bs, source)) :
    s.pending = bs ++ (s.fed bs source).pending := by
  rw [pending, if_neg (by simp [he])]
  cases bs with
  | nil => simp [(Source.content_of_read_nil (by decide) hr).1, fed, pending]
  | cons b bs => simp [(Source.content_of_read hr).1, fed, pending]

theorem ahead_fed {s : Splitter} {bs : List UInt8} {source : Source}
    (he : s.atEnd = false) (hr : s.source.read chunkSize = (.bytes bs, source))
    (o : Nat) : (s.fed bs source).ahead o = s.ahead o := by
  rw [ahead, ahead, pending_of_read he hr, ← List.append_assoc]
  rfl

theorem readEnds_of_read_nil {s : Splitter} {source : Source}
    (he : s.atEnd = false) (hr : s.source.read chunkSize = (.bytes [], source))
    (o : Nat) : s.readEnds o = (s.fed [] source).readEnds o := by
  rw [readEnds, if_neg (by simp [he]), Source.readEnds_of_content_eq_nil
    (Source.content_of_read_nil (by decide) hr).1]
  rfl

theorem readEnds_of_read_cons {s : Splitter} {b : UInt8} {bs : List UInt8}
    {source : Source} (he : s.atEnd = false)
    (hr : s.source.read chunkSize = (.bytes (b :: bs), source)) (o : Nat) :
    s.readEnds o = (o + (b :: bs).length) ::
      (s.fed (b :: bs) source).readEnds (o + (b :: bs).length) := by
  rw [readEnds, if_neg (by simp [he]), Source.readEnds_of_read hr]
  rfl

/-- The results of a splitter whose bytes held begin at offset `o` of the
script, as the pieces of the script determine them. -/
def expected (s : Splitter) (o : Nat) : List Yield :=
  outcomes s.cap s.delimiter.length
    ((o + s.buffer.length) :: s.readEnds (o + s.buffer.length)) s.fault?
    (located s.delimiter.length o (pieces s.delimiter (s.buffer ++ s.pending)))

theorem le_of_mem_ends {s : Splitter} {o e : Nat}
    (h : e ∈ (o + s.buffer.length) :: s.readEnds (o + s.buffer.length)) :
    o + s.buffer.length ≤ e := by
  rcases List.mem_cons.1 h with rfl | h
  · exact Nat.le_refl _
  · rw [readEnds] at h
    split at h
    · simp at h
    · exact Nat.le_of_lt (Source.le_of_mem_readEnds h).1

theorem expected_of_delimiter {s : Splitter} {n : Nat} (hs : s.Sound)
    (hd : s.delimiterAt? = some n) (o : Nat) :
    s.expected o =
      if s.cap < n then [.error (.statementTooLarge s.cap)]
      else (statements [s.buffer.take n]).map .ok ++
        (s.cutAt n).expected (o + n + s.delimiter.length) := by
  have hfind : findBytes s.delimiter s.buffer = some n := hs ▸ hd
  have hle := length_le_of_findBytes hfind
  have htake : (s.buffer.take n).length = n := by
    rw [List.length_take]
    omega
  rw [expected, ← ahead, ahead_of_delimiter hs hd]
  split
  · next hcap =>
      refine outcomes_cons_of_not_fits fun h => ?_
      have := (fits_mk.1 h).1
      omega
  · next hcap =>
      -- Nothing is read before the delimiter behind this piece is complete.
      have hfits : (Piece.mk o (s.buffer.take n)).Fits s.cap s.delimiter.length
          ((o + s.buffer.length) :: s.readEnds (o + s.buffer.length)) := by
        refine fits_mk.2 ⟨by omega, fun e he => ?_⟩
        have := le_of_mem_ends he
        omega
      have hoff : o + n + s.delimiter.length + (s.cutAt n).buffer.length =
          o + s.buffer.length := by
        simp only [cutAt, List.length_drop]
        omega
      rw [outcomes_cons_of_fits hfits (ahead_ne_nil _ _), expected, hoff]
      rfl

theorem expected_of_overfull {s : Splitter} (hs : s.Sound)
    (hd : s.delimiterAt? = none) (hcap : s.cap < s.buffer.length) (o : Nat) :
    s.expected o = [.error (.statementTooLarge s.cap)] := by
  have hw := s.delimiter_ne_nil
  have hfind : findBytes s.delimiter s.buffer = none := hs ▸ hd
  rw [expected]
  cases hg : findBytes s.delimiter (s.buffer ++ s.pending) with
  | none =>
      rw [pieces_of_findBytes_eq_none hw hg, located_cons]
      refine outcomes_cons_of_not_fits fun h => ?_
      have := (fits_mk.1 h).1
      rw [List.length_append] at this
      omega
  | some k =>
      -- The bytes held end inside the delimiter, and they are too many.
      have hlt := length_lt_of_findBytes_append hw hfind hg
      have hle := length_le_of_findBytes hg
      rw [pieces_of_findBytes_eq_some hw hg, located_cons]
      refine outcomes_cons_of_not_fits fun h => ?_
      have hcalm := (fits_mk.1 h).2 _ List.mem_cons_self
      rw [List.length_take] at hcalm
      omega

theorem expected_of_pending_eq_nil {s : Splitter} (hs : s.Sound)
    (hd : s.delimiterAt? = none) (hcap : s.buffer.length ≤ s.cap)
    (hp : s.pending = []) (hr : ∀ o, s.readEnds o = []) (o : Nat) :
    s.expected o = closing s.fault? ⟨o, s.buffer⟩ := by
  rw [expected, ← ahead, ahead_of_pending_eq_nil hs hd hp, hr]
  refine outcomes_singleton (fits_mk.2 ⟨hcap, fun e he => ?_⟩)
  rw [List.mem_singleton] at he
  omega

theorem expected_of_atEnd {s : Splitter} (hs : s.Sound)
    (hd : s.delimiterAt? = none) (hcap : s.buffer.length ≤ s.cap)
    (he : s.atEnd = true) (o : Nat) :
    s.expected o = (statements [s.buffer]).map .ok := by
  rw [expected_of_pending_eq_nil hs hd hcap (by rw [pending, if_pos he])
    (fun o => by rw [readEnds, if_pos he]), fault?, if_pos he]
  rfl

theorem expected_of_failed {s : Splitter} {reason : String} {source : Source}
    (hs : s.Sound) (hd : s.delimiterAt? = none)
    (hcap : s.buffer.length ≤ s.cap) (he : s.atEnd = false)
    (hr : s.source.read chunkSize = (.failed reason, source)) (o : Nat) :
    s.expected o = [.error (.scriptUnreadable reason)] := by
  obtain ⟨hc, hf⟩ := Source.content_of_read_failed hr
  rw [expected_of_pending_eq_nil hs hd hcap (by rw [pending, if_neg (by simp [he]), hc])
    (fun o => by
      rw [readEnds, if_neg (by simp [he]), Source.readEnds_of_content_eq_nil hc]),
    fault?, if_neg (by simp [he]), hf]
  rfl

theorem expected_of_fed {s : Splitter} {bs : List UInt8} {source : Source}
    (hs : s.Sound) (hd : s.delimiterAt? = none)
    (hcap : s.buffer.length ≤ s.cap) (he : s.atEnd = false)
    (hr : s.source.read chunkSize = (.bytes bs, source)) (o : Nat) :
    s.expected o = (s.fed bs source).expected o := by
  have hfind : findBytes s.delimiter s.buffer = none := hs ▸ hd
  rw [expected, expected, ← ahead, ← ahead, ahead_fed he hr]
  cases bs with
  | nil =>
      have hfault := (Source.content_of_read_nil (by decide) hr).2
      rw [readEnds_of_read_nil he hr, fault?, if_neg (by simp [he]), hfault]
      simp [fed, fault?]
  | cons b bs =>
      have hfault : s.fault? = (s.fed (b :: bs) source).fault? := by
        rw [fault?, if_neg (by simp [he]), (Source.content_of_read hr).2]
        simp [fed, fault?]
      have hlen : o + s.buffer.length + (b :: bs).length =
          o + (s.fed (b :: bs) source).buffer.length := by
        simp only [fed, List.length_append]
        omega
      -- The bytes held before the read were within the cap.
      rw [readEnds_of_read_cons he hr, hlen, hfault, outcomes_cons_end]
      · rfl
      · intro p hp
        rcases start_of_mem_located_pieces s.delimiter_ne_nil hfind hp with
          hstart | hstart
        · omega
        · omega

/-- The results of a splitter are determined by the pieces of the script and
the offsets at which reads end. -/
theorem results_eq_expected {s : Splitter} (hf : s.finished = false)
    (hs : s.Sound) (o : Nat) : s.results = s.expected o := by
  induction hn : s.weight using Nat.strongRecOn generalizing s o with
  | ind n ih =>
      subst hn
      cases hd : s.delimiterAt? with
      | some k =>
          rw [results_of_delimiter hf hd, expected_of_delimiter hs hd,
            ih _ (weight_cutAt_lt hd) (s := s.cutAt k) hf (s.sound_cutAt k) _ rfl]
      | none =>
          rcases Nat.lt_or_ge s.cap s.buffer.length with hcap | hcap
          · rw [results_of_overfull hf hd hcap, expected_of_overfull hs hd hcap]
          · cases he : s.atEnd with
            | true =>
                rw [results_of_atEnd hf hd hcap he,
                  expected_of_atEnd hs hd hcap he]
            | false =>
                cases hr : s.source.read chunkSize with
                | mk answer source =>
                    cases answer with
                    | failed reason =>
                        rw [results_of_failed hf hd hcap he hr,
                          expected_of_failed hs hd hcap he hr]
                    | bytes bs =>
                        rw [results_of_fed hf hd hcap he hr,
                          expected_of_fed hs hd hcap he hr]
                        exact ih _ (weight_fed_lt he hr)
                          (s := s.fed bs source) hf
                          (sound_fed hs hd bs source) o rfl

theorem start_eq (source : Source) (delimiter : List UInt8) (cap : Nat) :
    start source delimiter cap =
      { source, cap
        delimiter := if delimiter = [] then semicolon else delimiter
        delimiter_ne_nil := by
          split
          · decide
          · assumption } := by
  by_cases hd : delimiter = [] <;> simp [start, hd]

theorem delimiter_start (source : Source) (delimiter : List UInt8) (cap : Nat) :
    (start source delimiter cap).delimiter =
      if delimiter = [] then semicolon else delimiter := by
  rw [start_eq]

theorem results_start (source : Source) (delimiter : List UInt8) (cap : Nat) :
    (start source delimiter cap).results =
      outcomes cap (start source delimiter cap).delimiter.length
        (source.readEnds chunkSize 0) source.fault?
        (located (start source delimiter cap).delimiter.length 0
          (pieces (start source delimiter cap).delimiter source.content)) := by
  rw [start_eq]
  exact (results_eq_expected rfl (sound_of_scanFrom_eq_zero rfl) 0).trans
    (outcomes_cons_end fun p _ => Nat.zero_le _)

theorem results_start_of_ne_nil (source : Source) {delimiter : List UInt8}
    (hd : delimiter ≠ []) (cap : Nat) :
    (start source delimiter cap).results =
      outcomes cap delimiter.length (source.readEnds chunkSize 0) source.fault?
        (located delimiter.length 0 (pieces delimiter source.content)) := by
  rw [results_start, delimiter_start, if_neg hd]

end Splitter

namespace Statements

def results (s : Statements) : List Yield :=
  match _h : s.next with
  | (none, _) => []
  | (some y, rest) => y :: results rest
termination_by s.weight
decreasing_by
  have := weight_next_lt (s := s) (by rw [_h]; rfl)
  rwa [_h] at this

theorem results_eq (s : Statements) :
    s.results =
      match s.next.1 with
      | none => []
      | some y => y :: s.next.2.results := by
  rw [results]
  split
  · next heq => rw [heq]
  · next heq => rw [heq]

theorem results_split (s : Splitter) : (split s).results = s.results := by
  induction hn : s.weight using Nat.strongRecOn generalizing s with
  | ind n ih =>
      subst hn
      rw [results_eq, Splitter.results_eq, next]
      cases hy : s.next.1 with
      | none => rfl
      | some y =>
          have hlt := Splitter.weight_next_lt (s := s) (by rw [hy]; rfl)
          simp only [ih _ hlt s.next.2 rfl]

theorem results_taken (source : Source) : (whole source true).results = [] := by
  rw [results_eq, next]

/-- A script that is one statement is its content, or the failure of the
source alone. -/
theorem results_whole (source : Source) :
    (whole source false).results =
      match source.fault? with
      | some reason => [.error (.scriptUnreadable reason)]
      | none => (statements [source.content]).map .ok := by
  have hfst := source.readAll_fst
  rw [results_eq, next]
  cases hr : source.readAll with
  | mk answer rest =>
      rw [hr] at hfst
      cases hf : source.fault? with
      | none =>
          obtain rfl : answer = .bytes source.content := by simpa [hf] using hfst
          rw [statements_singleton]
          by_cases htrim : Ascii.trim source.content = [] <;>
            simp [htrim, results_taken]
      | some reason =>
          obtain rfl : answer = .failed reason := by simpa [hf] using hfst
          simp [results_taken]

end Statements

end SchemaLedger
