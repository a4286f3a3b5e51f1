import Mathlib.Logic.Function.Iterate
import Mathlib.Order.Bounds.Basic
import SchemaLedger.Proofs.Script.Iteration
/-!
# What a splitter reads, and when

A call of `next` goes round a loop. `turn` is one turn of it, together with what can
be noticed from outside: the answer of the read that it issues, if it issues one, and
what the call returns, if the turn is its last. The state after any number of calls is
the state after some number of turns (`exists_calls_eq`), so what holds after every
number of turns holds in every state that a splitter reaches.

A splitter that is still on its way is `Live`: it is known which part of the script it
has read, which pieces it has cut off, and that no piece which is still ahead ended
before the last read. Every turn keeps this or ends the iteration, which gives
`reading_lazy`: a read is issued only if it has to be, and a statement is handed out
after the first read at which its delimiter is complete.
-/

namespace SchemaLedger

open Script

namespace Splitter

/-- A turn of the loop of `next`. -/
structure Turn where
  /-- The answer of the read that the turn issues, if it issues one. -/
  read? : Option Source.Answer := none
  /-- What the call returns that the turn ends, if it ends one. -/
  returned? : Option (Option Yield) := none
  after : Splitter

/-- What is handed out for a piece: nothing if it is blank. -/
def handing (piece : List UInt8) : Option Yield :=
  if Ascii.trim piece = [] then none else some (.ok (Ascii.trim piece))

def turn (s : Splitter) : Turn :=
  if s.finished then { returned? := some none, after := s }
  else
    match s.delimiterAt? with
    | some offset =>
      if s.cap < offset then
        { returned? := some (some (.error (.statementTooLarge s.cap)))
          after := s.stop }
      else
        { returned? := (handing (s.buffer.take offset)).map some
          after := s.cutAt offset }
    | none =>
      if s.cap < s.buffer.length then
        { returned? := some (some (.error (.statementTooLarge s.cap)))
          after := s.stop }
      else if s.atEnd then
        { returned? := some (handing s.buffer), after := s.stop }
      else
        match s.source.read chunkSize with
        | (.failed reason, source) =>
          { read? := some (.failed reason)
            returned? := some (some (.error (.scriptUnreadable reason)))
            after := { s with source }.stop }
        | (.bytes bs, source) =>
          { read? := some (.bytes bs), after := s.fed bs source }

/-- What a turn can be, and when. -/
inductive Takes (s : Splitter) : Turn → Prop
  /-- The iteration was over before. -/
  | rests (hf : s.finished = true) : Takes s { returned? := some none, after := s }
  /-- A piece is cut off, and handed out if it is not blank. -/
  | cuts {n : Nat} (hf : s.finished = false) (hd : s.delimiterAt? = some n)
      (hcap : n ≤ s.cap) :
      Takes s
        { returned? := (handing (s.buffer.take n)).map some, after := s.cutAt n }
  /-- A piece is too long, or bytes are too many that hold no delimiter. -/
  | refuses (hf : s.finished = false)
      (hcap : s.cap < s.delimiterAt?.getD s.buffer.length) :
      Takes s
        { returned? := some (some (.error (.statementTooLarge s.cap)))
          after := s.stop }
  /-- The stream has ended, and so does the last piece. -/
  | closes (hf : s.finished = false) (hd : s.delimiterAt? = none)
      (hcap : s.buffer.length ≤ s.cap) (he : s.atEnd = true) :
      Takes s { returned? := some (handing s.buffer), after := s.stop }
  | fails {reason : String} {source : Source} (hf : s.finished = false)
      (hd : s.delimiterAt? = none) (hcap : s.buffer.length ≤ s.cap)
      (he : s.atEnd = false)
      (hr : s.source.read chunkSize = (.failed reason, source)) :
      Takes s
        { read? := some (.failed reason)
          returned? := some (some (.error (.scriptUnreadable reason)))
          after := { s with source }.stop }
  | feeds {bs : List UInt8} {source : Source} (hf : s.finished = false)
      (hd : s.delimiterAt? = none) (hcap : s.buffer.length ≤ s.cap)
      (he : s.atEnd = false)
      (hr : s.source.read chunkSize = (.bytes bs, source)) :
      Takes s { read? := some (.bytes bs), after := s.fed bs source }

theorem takes_turn (s : Splitter) : s.Takes s.turn := by
  rw [turn]
  by_cases hf : s.finished = true
  · rw [if_pos hf]
    exact .rests hf
  · rw [if_neg hf]
    rw [Bool.not_eq_true] at hf
    cases hd : s.delimiterAt? with
    | some n =>
        dsimp only
        rcases Nat.lt_or_ge s.cap n with hcap | hcap
        · rw [if_pos hcap]
          exact .refuses hf (by rwa [hd])
        · rw [if_neg (Nat.not_lt.2 hcap)]
          exact .cuts hf hd hcap
    | none =>
        dsimp only
        rcases Nat.lt_or_ge s.cap s.buffer.length with hcap | hcap
        · rw [if_pos hcap]
          exact .refuses hf (by rwa [hd])
        · rw [if_neg (Nat.not_lt.2 hcap)]
          by_cases he : s.atEnd = true
          · rw [if_pos he]
            exact .closes hf hd hcap he
          · rw [if_neg he]
            rw [Bool.not_eq_true] at he
            cases hr : s.source.read chunkSize with
            | mk answer source =>
                cases answer with
                | failed reason => exact .fails hf hd hcap he hr
                | bytes bs => exact .feeds hf hd hcap he hr

theorem Takes.source_eq {s : Splitter} {t : Turn} (h : s.Takes t) :
    (t.read? = none → t.after.source = s.source) ∧
    ∀ answer, t.read? = some answer →
      s.source.read chunkSize = (answer, t.after.source) := by
  cases h with
  | rests | cuts | refuses | closes => exact ⟨fun _ => rfl, fun _ h => nomatch h⟩
  | fails _ _ _ _ hr | feeds _ _ _ _ hr =>
      refine ⟨fun h => (nomatch h), fun answer h => ?_⟩
      obtain rfl := Option.some.inj h
      exact hr

theorem Takes.next_eq {s : Splitter} {t : Turn} (h : s.Takes t) :
    s.next =
      match t.returned? with
      | some y => (y, t.after)
      | none => t.after.next := by
  cases h with
  | rests hf => exact next_of_finished hf
  | @cuts n hf hd hcap =>
      rw [next_of_delimiter hf hd, if_neg (Nat.not_lt.2 hcap)]
      by_cases hblank : Ascii.trim (s.buffer.take n) = [] <;>
        simp [handing, hblank]
  | refuses hf hcap =>
      cases hd : s.delimiterAt? with
      | some n =>
          rw [hd, Option.getD_some] at hcap
          rw [next_of_delimiter hf hd, if_pos hcap]
      | none =>
          rw [hd, Option.getD_none] at hcap
          rw [next_of_no_delimiter hf hd, if_pos hcap]
  | closes hf hd hcap he =>
      rw [next_of_no_delimiter hf hd, if_neg (Nat.not_lt.2 hcap), if_pos he]
      rfl
  | fails hf hd hcap he hr | feeds hf hd hcap he hr =>
      rw [next_of_no_delimiter hf hd, if_neg (Nat.not_lt.2 hcap),
        if_neg (by simp [he]), hr]

theorem Takes.weight_lt {s : Splitter} {t : Turn} (h : s.Takes t)
    (hreturned : t.returned? = none) : t.after.weight < s.weight := by
  cases h with
  | rests | refuses | closes | fails => cases hreturned
  | cuts _ hd => exact weight_cutAt_lt hd
  | feeds _ _ _ he hr => exact weight_fed_lt he hr

def after (s : Splitter) (n : Nat) : Splitter :=
  (fun s => s.turn.after)^[n] s

def history (s : Splitter) : Nat → List Turn
  | 0 => []
  | n + 1 => s.history n ++ [(s.after n).turn]

@[simp] theorem after_zero (s : Splitter) : s.after 0 = s := rfl

theorem after_succ (s : Splitter) (n : Nat) :
    s.after (n + 1) = (s.after n).turn.after :=
  Function.iterate_succ_apply' _ n s

theorem after_add (s : Splitter) (m n : Nat) :
    s.after (m + n) = (s.after m).after n := by
  rw [after, Nat.add_comm, Function.iterate_add_apply]
  rfl

theorem history_succ (s : Splitter) (n : Nat) :
    s.history (n + 1) = s.history n ++ [(s.after n).turn] := rfl

theorem history_add (s : Splitter) (m n : Nat) :
    s.history (m + n) = s.history m ++ (s.after m).history n := by
  induction n with
  | zero => exact (List.append_nil _).symm
  | succ n ih =>
      rw [← Nat.add_assoc, history_succ, history_succ, ih, after_add,
        List.append_assoc]

theorem history_isPrefix (s : Splitter) {m n : Nat} (h : m ≤ n) :
    s.history m <+: s.history n := by
  obtain ⟨k, rfl⟩ := Nat.exists_eq_add_of_le h
  rw [history_add]
  exact List.prefix_append _ _

/-- What the first `k` calls of `next` return, and the splitter after them. -/
def calls (s : Splitter) : Nat → List (Option Yield) × Splitter
  | 0 => ([], s)
  | k + 1 => (s.next.1 :: (s.next.2.calls k).1, (s.next.2.calls k).2)

/-- What the calls return that end in some turns. -/
def returns (ts : List Turn) : List (Option Yield) :=
  ts.filterMap Turn.returned?

theorem returns_append (ts us : List Turn) :
    returns (ts ++ us) = returns ts ++ returns us :=
  List.filterMap_append

/-- A call is made of turns, no more than there is left to do and one that returns
something, which is the last. -/
theorem exists_next_eq (s : Splitter) :
    ∃ n ≤ s.weight + 1,
      [s.next.1] = returns (s.history n) ∧ s.next.2 = s.after n := by
  induction hn : s.weight using Nat.strongRecOn generalizing s with
  | ind n ih =>
      subst hn
      have hnext := s.takes_turn.next_eq
      cases hy : s.turn.returned? with
      | some y =>
          rw [hy] at hnext
          refine ⟨1, Nat.le_add_left 1 _, ?_, ?_⟩
          · rw [hnext]
            simp [history, returns, hy]
          · rw [hnext, after_succ, after_zero]
      | none =>
          rw [hy] at hnext
          have hlt := s.takes_turn.weight_lt hy
          obtain ⟨m, hm, hreturns, hafter⟩ := ih _ hlt s.turn.after rfl
          have hone : s.after 1 = s.turn.after := rfl
          refine ⟨1 + m, by omega, ?_, ?_⟩
          · rw [hnext, history_add, returns_append, hone, ← hreturns]
            simp [history, returns, hy]
          · rw [hnext, after_add, hone, hafter]

theorem exists_calls_eq (s : Splitter) (k : Nat) :
    ∃ n, s.calls k = (returns (s.history n), s.after n) := by
  induction k generalizing s with
  | zero => exact ⟨0, rfl⟩
  | succ k ih =>
      obtain ⟨m, -, hreturns, hafter⟩ := s.exists_next_eq
      obtain ⟨n, hcalls⟩ := ih s.next.2
      refine ⟨m + n, ?_⟩
      rw [calls, hcalls, history_add, returns_append, ← hreturns, after_add,
        hafter]
      rfl

def consumed (ts : List Turn) : List UInt8 :=
  ts.flatMap fun t => t.read?.elim [] Source.Answer.delivered

theorem consumed_append (ts us : List Turn) :
    consumed (ts ++ us) = consumed ts ++ consumed us :=
  List.flatMap_append

theorem consumed_isPrefix (s : Splitter) {m n : Nat} (h : m ≤ n) :
    consumed (s.history m) <+: consumed (s.history n) := by
  obtain ⟨us, hus⟩ := s.history_isPrefix h
  rw [← hus, consumed_append]
  exact List.prefix_append _ _

theorem consumed_singleton (t : Turn) :
    consumed [t] = t.read?.elim [] Source.Answer.delivered := by
  simp [consumed]

theorem consumed_concat {t : Turn}
    (h : t.read?.elim [] Source.Answer.delivered = []) (ts : List Turn) :
    consumed (ts ++ [t]) = consumed ts := by
  rw [consumed_append, consumed_singleton, h, List.append_nil]

/-- What the calls return that come to the end of some pieces, if all goes well. -/
def yields (ps : List Piece) : List (Option Yield) :=
  (statements (ps.map Piece.bytes)).map fun statement => some (.ok statement)

theorem yields_append (ps qs : List Piece) :
    yields (ps ++ qs) = yields ps ++ yields qs := by
  simp only [yields, List.map_append, statements_append]

theorem returns_handing (p : Piece) (after : Splitter) :
    returns [{ returned? := (handing p.bytes).map some, after }] = yields [p] := by
  rw [yields, List.map_singleton, statements_singleton, handing]
  by_cases h : Ascii.trim p.bytes = [] <;> simp [returns, h]

/-- The turn meets the end of the stream or a fault, or the iteration was over. -/
def Turn.MeetsEnd (t : Turn) : Prop :=
  t.read? = some (.bytes []) ∨ (∃ reason, t.read? = some (.failed reason)) ∨
    (∃ fault, t.returned? = some (some (.error fault))) ∨
    t.returned? = some none

/-- What is known after the turns `ts` from `s₀` on, if the iteration goes on. The
bytes held begin at offset `o` of the script. The pieces in `front` have been cut off,
and reads ended at the offsets in `past` before the last read did. -/
structure Live (s₀ : Splitter) (ts : List Turn) (s : Splitter) (o : Nat)
    (front : List Piece) (past : List Nat) : Prop where
  unfinished : s.finished = false
  delimiter_eq : s.delimiter = s₀.delimiter
  cap_eq : s.cap = s₀.cap
  sound : s.Sound
  length_le : s.buffer.length ≤ s₀.cap + chunkSize
  no_end : s.atEnd = false → ∀ t ∈ ts, ¬ t.MeetsEnd
  held : o + s.buffer.length = (consumed ts).length
  script : consumed ts ++ s.pending = s₀.pending
  cut : s₀.ahead 0 = front ++ s.ahead o
  returned : returns ts = yields front
  ends : 0 :: s₀.readEnds 0 =
    past ++ (consumed ts).length :: s.readEnds (consumed ts).length
  past_lt : ∀ e ∈ past, ∀ p ∈ (s.ahead o).dropLast, e < p.stop s.delimiter.length

/-- What is known after the turns `ts` from `s₀` on, if the iteration is over. -/
structure Over (s₀ : Splitter) (ts : List Turn) (s : Splitter) : Prop where
  finished : s.finished = true
  buffer_eq : s.buffer = []
  mem_ends : (consumed ts).length ∈ 0 :: s₀.readEnds 0

section Live

variable {s₀ s : Splitter} {ts : List Turn} {t : Turn} {o : Nat}
  {front : List Piece} {past : List Nat}

theorem live_start (hf : s₀.finished = false) (hb : s₀.buffer = [])
    (hs : s₀.scanFrom = 0) : Live s₀ [] s₀ 0 [] [] where
  unfinished := hf
  delimiter_eq := rfl
  cap_eq := rfl
  sound := sound_of_scanFrom_eq_zero hs
  length_le := by simp [hb]
  no_end := by simp
  held := by simp [hb, consumed]
  script := rfl
  cut := rfl
  returned := rfl
  ends := rfl
  past_lt := by simp

theorem Live.mem_ends (h : Live s₀ ts s o front past) :
    (consumed ts).length ∈ 0 :: s₀.readEnds 0 := by
  rw [h.ends]
  exact List.mem_append_right _ List.mem_cons_self

theorem Live.cutAt (h : Live s₀ ts s o front past) {n : Nat}
    (hd : s.delimiterAt? = some n) :
    Live s₀
      (ts ++ [{ returned? := (handing (s.buffer.take n)).map some
                after := s.cutAt n }])
      (s.cutAt n) (o + n + s.delimiter.length)
      (front ++ [⟨o, s.buffer.take n⟩]) past := by
  have hle := length_le_of_delimiterAt? hd
  have hahead := ahead_of_delimiter h.sound hd o
  exact {
    unfinished := h.unfinished
    delimiter_eq := h.delimiter_eq
    cap_eq := h.cap_eq
    sound := s.sound_cutAt n
    length_le := by
      have := h.length_le
      simp only [Splitter.cutAt, List.length_drop]
      omega
    no_end := fun he => by
      refine List.forall_mem_append.2 ⟨h.no_end he, ?_⟩
      simp [Turn.MeetsEnd, handing]
    held := by
      rw [consumed_concat rfl, ← h.held]
      simp only [Splitter.cutAt, List.length_drop]
      omega
    script := by
      rw [consumed_concat rfl]
      exact h.script
    cut := by
      rw [h.cut, hahead, List.append_assoc]
      rfl
    returned := by
      rw [returns_append, h.returned, yields_append, ← returns_handing]
    ends := by
      rw [consumed_concat rfl]
      exact h.ends
    past_lt := fun e he p hp => by
      refine h.past_lt e he p ?_
      rw [hahead, List.dropLast_cons_of_ne_nil (ahead_ne_nil _ _)]
      exact List.mem_cons_of_mem _ hp }

theorem Live.fed (h : Live s₀ ts s o front past) {bs : List UInt8}
    {source : Source} (hd : s.delimiterAt? = none)
    (hcap : s.buffer.length ≤ s.cap) (he : s.atEnd = false)
    (hr : s.source.read chunkSize = (.bytes bs, source)) :
    ∃ past', Live s₀
      (ts ++ [{ read? := some (.bytes bs), after := s.fed bs source }])
      (s.fed bs source) o front past' := by
  have hfind : findBytes s.delimiter s.buffer = none := h.sound ▸ hd
  have hlen : bs.length ≤ chunkSize := by
    have := Source.length_delivered_read_le chunkSize s.source
    rwa [hr] at this
  have hconsumed : consumed (ts ++ [{ read? := some (.bytes bs)
                                      after := s.fed bs source }]) =
      consumed ts ++ bs := by
    rw [consumed_append, consumed_singleton]
    rfl
  have hahead := ahead_fed he hr o
  -- What is still ahead ends behind the bytes that were held.
  have hlast : ∀ p ∈ (s.ahead o).dropLast,
      (consumed ts).length < p.stop s.delimiter.length := fun p hp => by
    rw [← h.held]
    exact length_lt_stop_of_mem_dropLast_located s.delimiter_ne_nil hfind hp
  have hends : ∃ past', (0 :: s₀.readEnds 0 =
        past' ++ (consumed ts ++ bs).length ::
          (s.fed bs source).readEnds (consumed ts ++ bs).length) ∧
      ∀ e ∈ past', ∀ p ∈ (s.ahead o).dropLast, e < p.stop s.delimiter.length := by
    cases bs with
    | nil =>
        refine ⟨past, ?_, h.past_lt⟩
        rw [List.append_nil, ← readEnds_of_read_nil he hr]
        exact h.ends
    | cons b bs =>
        refine ⟨past ++ [(consumed ts).length], ?_, ?_⟩
        · rw [h.ends, readEnds_of_read_cons he hr, List.length_append,
            List.append_assoc]
          rfl
        · exact List.forall_mem_append.2
            ⟨h.past_lt, by simpa using hlast⟩
  obtain ⟨past', hends, hpast⟩ := hends
  exact ⟨past', {
    unfinished := h.unfinished
    delimiter_eq := h.delimiter_eq
    cap_eq := h.cap_eq
    sound := sound_fed h.sound hd bs source
    length_le := by
      have := h.cap_eq
      simp only [Splitter.fed, List.length_append]
      omega
    no_end := fun he' => by
      refine List.forall_mem_append.2 ⟨h.no_end he, ?_⟩
      have hbs : bs ≠ [] := by simpa [Splitter.fed] using he'
      simpa [Turn.MeetsEnd] using hbs
    held := by
      rw [hconsumed, List.length_append, ← h.held]
      simp only [Splitter.fed, List.length_append]
      omega
    script := by
      rw [hconsumed, List.append_assoc, ← pending_of_read he hr]
      exact h.script
    cut := by rw [hahead, h.cut]
    returned := by
      rw [returns_append, h.returned]
      exact List.append_nil _
    ends := by
      rw [hconsumed]
      exact hends
    past_lt := by
      rw [hahead]
      exact hpast }⟩

/-- A turn of a splitter on its way keeps what is known, or ends the iteration. -/
theorem Live.step (h : Live s₀ ts s o front past) (ht : s.Takes t) :
    (∃ o' front' past', Live s₀ (ts ++ [t]) t.after o' front' past') ∨
      Over s₀ (ts ++ [t]) t.after := by
  have hends : t.read?.elim [] Source.Answer.delivered = [] →
      (consumed (ts ++ [t])).length ∈ 0 :: s₀.readEnds 0 := fun hnone => by
    rw [consumed_concat hnone]
    exact h.mem_ends
  cases ht with
  | rests hf => exact absurd hf (by simp [h.unfinished])
  | cuts hf hd hcap => exact .inl ⟨_, _, _, h.cutAt hd⟩
  | feeds hf hd hcap he hr =>
      obtain ⟨past', h'⟩ := h.fed hd hcap he hr
      exact .inl ⟨_, _, past', h'⟩
  | refuses | closes | fails => exact .inr ⟨rfl, rfl, hends rfl⟩

theorem Over.takes_eq (h : Over s₀ ts s) (ht : s.Takes t) :
    t = { returned? := some none, after := s } := by
  cases ht with
  | rests => rfl
  | cuts hf | refuses hf | closes hf | fails hf | feeds hf =>
      exact absurd h.finished (by simp [hf])

theorem Over.step (h : Over s₀ ts s) (ht : s.Takes t) :
    Over s₀ (ts ++ [t]) t.after := by
  obtain rfl := h.takes_eq ht
  refine ⟨h.finished, h.buffer_eq, ?_⟩
  rw [consumed_concat rfl]
  exact h.mem_ends

theorem live_or_over (hf : s₀.finished = false) (hb : s₀.buffer = [])
    (hs : s₀.scanFrom = 0) (n : Nat) :
    (∃ o front past, Live s₀ (s₀.history n) (s₀.after n) o front past) ∨
      Over s₀ (s₀.history n) (s₀.after n) := by
  induction n with
  | zero => exact .inl ⟨_, _, _, live_start hf hb hs⟩
  | succ n ih =>
      rw [history_succ, after_succ]
      rcases ih with ⟨_, _, _, h⟩ | h
      · exact h.step (takes_turn _)
      · exact .inr (h.step (takes_turn _))

theorem consumed_mem_ends (hf : s₀.finished = false) (hb : s₀.buffer = [])
    (hs : s₀.scanFrom = 0) (n : Nat) :
    (consumed (s₀.history n)).length ∈ 0 :: s₀.readEnds 0 := by
  rcases live_or_over hf hb hs n with ⟨_, _, _, h⟩ | h
  · exact h.mem_ends
  · exact h.mem_ends

theorem Live.of_read (h : Live s₀ ts s o front past) (ht : s.Takes t)
    (hread : t.read? ≠ none) :
    findBytes s.delimiter s.buffer = none ∧ s.buffer.length ≤ s.cap ∧
      ∀ u ∈ ts, ¬ u.MeetsEnd := by
  cases ht with
  | rests | cuts | refuses | closes => exact absurd rfl hread
  | fails hf hd hcap he hr | feeds hf hd hcap he hr =>
      exact ⟨h.sound ▸ hd, hcap, h.no_end he⟩

theorem mem_of_stop_le {ends : List Nat} {e width : Nat} {p : Piece}
    (hw : 0 < width) (he : e ∈ 0 :: ends) (hstop : p.stop width ≤ e) : e ∈ ends := by
  refine (List.mem_cons.1 he).resolve_left ?_
  rw [Piece.stop] at hstop
  omega

/-- A statement that is handed out is the next piece. If a delimiter follows the
piece, no read ended behind the delimiter before the last one did, and otherwise
everything has been read. -/
theorem Live.of_statement (h : Live s₀ ts s o front past) (ht : s.Takes t)
    {statement : List UInt8} (hy : t.returned? = some (some (.ok statement))) :
    consumed (ts ++ [t]) = consumed ts ∧
    ∃ p back, s.ahead o = p :: back ∧ Ascii.trim p.bytes = statement ∧
      (back ≠ [] → IsLeast {e | e ∈ s₀.readEnds 0 ∧ p.stop s.delimiter.length ≤ e}
        (consumed ts).length) ∧
      (back = [] → consumed ts = s₀.pending) := by
  have htrim : ∀ piece, handing piece = some (.ok statement) →
      Ascii.trim piece = statement := fun piece hp => by
    rw [handing] at hp
    split at hp
    · cases hp
    · exact Except.ok.inj (Option.some.inj hp)
  cases ht with
  | rests | refuses | fails | feeds => cases hy
  | @cuts n hf hd hcap =>
      have hahead := ahead_of_delimiter h.sound hd o
      have hle := length_le_of_delimiterAt? hd
      have hback := (s.cutAt n).ahead_ne_nil (o + n + s.delimiter.length)
      have hmem : ⟨o, s.buffer.take n⟩ ∈ (s.ahead o).dropLast := by
        rw [hahead, List.dropLast_cons_of_ne_nil hback]
        exact List.mem_cons_self
      have hstop : Piece.stop s.delimiter.length ⟨o, s.buffer.take n⟩ ≤
          (consumed ts).length := by
        rw [← h.held, stop_mk, List.length_take]
        omega
      have hw := List.length_pos_iff.2 s.delimiter_ne_nil
      refine ⟨consumed_concat rfl ts, _, _, hahead, htrim _ (by simpa using hy), fun _ =>
        ⟨⟨mem_of_stop_le hw h.mem_ends hstop, hstop⟩, ?_⟩,
        fun hnil => absurd hnil hback⟩
      · rintro e ⟨he, hle⟩
        have hends := h.ends ▸ List.mem_cons_of_mem 0 he
        rcases List.mem_append.1 hends with hpast | hrest
        · exact absurd (h.past_lt e hpast _ hmem) (Nat.not_lt.2 hle)
        · rcases List.mem_cons.1 hrest with rfl | hrest
          · exact Nat.le_refl _
          · rw [← h.held] at hrest ⊢
            exact le_of_mem_ends (List.mem_cons_of_mem _ hrest)
  | closes hf hd hcap he =>
      have hpending : s.pending = [] := by rw [pending, if_pos he]
      refine ⟨consumed_concat rfl ts, _, _, ahead_of_pending_eq_nil h.sound hd hpending o,
        htrim _ (Option.some.inj hy), fun hne => absurd rfl hne, fun _ => ?_⟩
      rw [← h.script, hpending, List.append_nil]

theorem consumed_eq_of_isLeast {m n width : Nat} {p : Piece} (hm : m ≤ n)
    (hw : 0 < width) (hmem : (consumed (s₀.history m)).length ∈ 0 :: s₀.readEnds 0)
    (hleast : IsLeast {e | e ∈ s₀.readEnds 0 ∧ p.stop width ≤ e}
      (consumed (s₀.history n)).length)
    (hstop : p.stop width ≤ (consumed (s₀.history m)).length) :
    consumed (s₀.history m) = consumed (s₀.history n) :=
  (s₀.consumed_isPrefix hm).eq_of_length_le
    (hleast.2 ⟨mem_of_stop_le hw hmem hstop, hstop⟩)

end Live

/-- Reading is lazy, and what is held is bounded. A splitter is observed through any
number of calls, turn by turn: when it reads, and how far it has read when it hands out
the statement of a piece. No delimiter follows a piece if none is left behind it. -/
theorem reading_lazy (source : Source) (delimiter : List UInt8) (cap : Nat) :
    let d := if delimiter = [] then semicolon else delimiter
    let s₀ := start source delimiter cap
    (∀ k, ∃ n, s₀.calls k = (returns (s₀.history n), s₀.after n)) ∧
    ∀ n,
      let s := s₀.after n
      let t := s.turn
      s.buffer.length ≤ cap + chunkSize ∧
      (t.read? = none → t.after.source = s.source) ∧
      (∀ answer, t.read? = some answer →
        s.source.read chunkSize = (answer, t.after.source) ∧
        findBytes d s.buffer = none ∧ s.buffer.length ≤ cap ∧
        ∀ u ∈ s₀.history n, ¬ u.MeetsEnd) ∧
      ∀ statement, t.returned? = some (some (.ok statement)) →
        ∃ front p back,
          located d.length 0 (pieces d source.content) = front ++ p :: back ∧
          Ascii.trim p.bytes = statement ∧
          returns (s₀.history n) = yields front ∧
          consumed (s₀.history (n + 1)) <+: source.content ∧
          (back ≠ [] →
            IsLeast {e | e ∈ source.readEnds chunkSize 0 ∧ p.stop d.length ≤ e}
              (consumed (s₀.history (n + 1))).length ∧
            ∀ m ≤ n, p.stop d.length ≤ (consumed (s₀.history m)).length →
              consumed (s₀.history m) = consumed (s₀.history (n + 1))) ∧
          (back = [] → consumed (s₀.history (n + 1)) = source.content) := by
  intro d s₀
  refine ⟨s₀.exists_calls_eq, fun n => ?_⟩
  intro s t
  have hs₀ : s₀ = _ := start_eq source delimiter cap
  have hf : s₀.finished = false := by rw [hs₀]
  have hb : s₀.buffer = [] := by rw [hs₀]
  have hscan : s₀.scanFrom = 0 := by rw [hs₀]
  have hcap : s₀.cap = cap := by rw [hs₀]
  have hcontent : s₀.pending = source.content := by rw [hs₀]; rfl
  have hps : s₀.ahead 0 = located d.length 0 (pieces d source.content) := by
    rw [hs₀]
    rfl
  have hends : s₀.readEnds 0 = source.readEnds chunkSize 0 := by rw [hs₀]; rfl
  have ht : s.Takes t := s.takes_turn
  obtain ⟨hidle, hread⟩ := ht.source_eq
  rw [← hends, ← hps, ← hcontent]
  rcases live_or_over hf hb hscan n with ⟨o, front, past, h⟩ | h
  · have hd : s.delimiter = d := h.delimiter_eq.trans (delimiter_start _ _ _)
    refine ⟨hcap ▸ h.length_le, hidle, fun answer hanswer => ?_,
      fun statement hy => ?_⟩
    · have hlook := h.of_read ht (by simp [hanswer])
      rw [hd, h.cap_eq, hcap] at hlook
      exact ⟨hread answer hanswer, hlook⟩
    · obtain ⟨hconsumed, p, back, hahead, hp, hdelimited, hlast⟩ :=
        h.of_statement ht hy
      have hw : 0 < d.length := List.length_pos_iff.2 (hd ▸ s.delimiter_ne_nil)
      rw [hd] at hdelimited
      rw [history_succ, hconsumed]
      refine ⟨front, p, back, hahead ▸ h.cut, hp, h.returned, ⟨_, h.script⟩,
        fun hback => ⟨hdelimited hback, fun m hm hstop => ?_⟩, hlast⟩
      exact consumed_eq_of_isLeast hm hw (consumed_mem_ends hf hb hscan m)
        (hdelimited hback) hstop
  · obtain ht' : t = _ := h.takes_eq ht
    refine ⟨by simp [s, h.buffer_eq], hidle, fun answer hanswer => ?_,
      fun statement hy => ?_⟩
    · simp [ht'] at hanswer
    · simp [ht'] at hy

/-- The second read is issued because the first one brought no delimiter, and nothing
behind it has been read when the statement is handed out. -/
theorem reading_lazy_of_two_reads :
    let s₀ := start [.bytes [0x61], .interrupted, .bytes [0x3B, 0x62],
      .failed "disk"] [] 1
    (s₀.after 1).turn.read? = some (.bytes [0x3B, 0x62]) ∧
    findBytes semicolon (s₀.after 1).buffer = none ∧
    (s₀.after 2).turn.returned? = some (some (.ok [0x61])) ∧
    consumed (s₀.history 3) <+: [0x61, 0x3B, 0x62] := by
  intro s₀
  have hread : (s₀.after 1).turn.read? = some (.bytes [0x3B, 0x62]) := by rfl
  have hy : (s₀.after 2).turn.returned? = some (some (.ok [0x61])) := by rfl
  have hlazy := (reading_lazy [.bytes [0x61], .interrupted, .bytes [0x3B, 0x62],
    .failed "disk"] [] 1).2
  obtain ⟨_, _, _, _, _, _, hscript, _⟩ := (hlazy 2).2.2.2 _ hy
  exact ⟨hread, ((hlazy 1).2.2.1 _ hread).2.1, hy, hscript⟩

end Splitter

end SchemaLedger
