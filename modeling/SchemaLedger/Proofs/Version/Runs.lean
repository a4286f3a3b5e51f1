import Mathlib.Logic.Function.Basic
import SchemaLedger.Proofs.Version.Table
/-!
# Several stores over one table

Version stores that share a table, each with keys of its own, and the runs of
calls on them in any order and at any clock readings. A store is in step if it
has found the table or read the current record since another store has last
added a record; rows from before the run count as added by another. Stores out
of step may look, but only those in step add records.

The invariant of such runs is `Intact`. Every stored row holds a record, the keys
of a store in step cover the table, and the record that was added last lies
behind all others with the greatest key.
-/

namespace SchemaLedger.VersionStore

variable {ι σ : Type}

inductive Request where
  | ensureTable
  | readCurrent
  | append (now : UInt64) (version : Int64) (dirty : Bool)
  deriving DecidableEq, Repr

namespace Request

def recorded? : Request → Option VersionState
  | append _ version dirty => some ⟨version, dirty⟩
  | _ => none

def action (db : Database σ) (table : String) : Request → Action σ Unit
  | ensureTable => do
    let _ ← VersionStore.ensureTable db table
    return ()
  | readCurrent => do
    let _ ← VersionStore.readCurrent db table
    return ()
  | append now version dirty => do
    let _ ← appendRecord db table now version dirty
    return ()

end Request

/-- A request that was made of a store, and whether it succeeded. -/
structure Event (ι : Type) where
  caller : ι
  request : Request
  ok : Bool
  deriving DecidableEq, Repr

def Event.committed? (e : Event ι) : Option VersionState :=
  if e.ok then e.request.recorded? else none

/-- The state recorded last. Events come latest first. -/
def lastRecorded? (events : List (Event ι)) : Option VersionState :=
  events.findSome? Event.committed?

theorem lastRecorded?_cons_of_none {e : Event ι} (he : e.committed? = none)
    (events : List (Event ι)) :
    lastRecorded? (e :: events) = lastRecorded? events := by
  rw [lastRecorded?, List.findSome?_cons, he]
  rfl

theorem lastRecorded?_cons_of_some {e : Event ι} {state : VersionState}
    (he : e.committed? = some state) (events : List (Event ι)) :
    lastRecorded? (e :: events) = some state := by
  rw [lastRecorded?, List.findSome?_cons, he]

/-- A store has looked at the table successfully since another has last added
to the rows that were there before the events. -/
def InStep [DecidableEq ι] (before : List Row) (i : ι) : List (Event ι) → Prop
  | [] => before = []
  | e :: earlier =>
    if e.caller = i then
      e.ok = true ∧ e.request.recorded? = none ∨ InStep before i earlier
    else e.committed? = none ∧ InStep before i earlier

/-- Stores over one table: the state of the database that they share, and the
keys of each. -/
structure Stores (ι σ : Type) where
  database : σ
  keys : ι → SequenceKeys

variable [DecidableEq ι]

namespace Stores

def session (st : Stores ι σ) (i : ι) : Session σ :=
  { database := st.database, keys := st.keys i }

def perform (db : Database σ) (table : String) (st : Stores ι σ) (i : ι)
    (request : Request) : Event ι × Stores ι σ :=
  let r := (request.action db table).run (st.session i)
  (⟨i, request, r.1.isOk⟩, ⟨r.2.database, Function.update st.keys i r.2.keys⟩)

end Stores

def stored (rows? : σ → Option (List Row)) (d : σ) : List Row :=
  (rows? d).getD []

/-- Runs of requests, with their events, from some state of the stores. Records
are added by stores in step. -/
inductive Run (db : Database σ) (table : String)
    (rows? : σ → Option (List Row)) (start : Stores ι σ) :
    List (Event ι) → Stores ι σ → Prop
  | start : Run db table rows? start [] start
  | call {events : List (Event ι)} {st : Stores ι σ} (i : ι)
      (request : Request) :
      Run db table rows? start events st →
      (request.recorded?.isSome → InStep (stored rows? start.database) i events) →
      Run db table rows? start ((st.perform db table i request).1 :: events)
        (st.perform db table i request).2

/-- The table is as it was before any record was added, or the record added
last lies behind all others. -/
def Shows (rows? : σ → Option (List Row)) (before : List Row)
    (last? : Option VersionState) (d : σ) : Prop :=
  match last? with
  | none => stored rows? d = before
  | some last => ∃ rows row r, rows? d = some (rows ++ [row]) ∧
    parseRecord row = .ok r ∧ r.state = last ∧
    ∀ other ∈ rows, key other < key row

structure Intact (rows? : σ → Option (List Row)) (before : List Row)
    (events : List (Event ι)) (st : Stores ι σ) : Prop where
  wellFormed : WellFormed rows? st.database
  covers : ∀ i, InStep before i events → Covers rows? st.database (st.keys i)
  shows : Shows rows? before (lastRecorded? events) st.database

variable {db : Database σ} {table : String} {rows? : σ → Option (List Row)}

theorem eq_of_stands_of_shows {rows : List Row} {row : Row} {r : VersionRecord}
    {state : VersionState} (hparse : parseRecord row = .ok r)
    (hkey : ∀ other ∈ rows, key other < key row)
    (hstands : Stands (rows ++ [row]) state) : state = r.state := by
  rcases hstands with ⟨hnil, -⟩ | ⟨row', r', hlatest, hparse', rfl⟩
  · simp at hnil
  · obtain rfl := eq_of_isLatest_append_singleton hkey hlatest
    rw [hparse] at hparse'
    cases hparse'
    rfl

theorem Shows.of_kept {before : List Row} {last? : Option VersionState}
    {d d' : σ} (h : Shows rows? before last? d)
    (hrows : rows? d' = rows? d ∨ rows? d = none ∧ rows? d' = some []) :
    Shows rows? before last? d' := by
  cases last? with
  | none =>
      rw [Shows, stored] at h ⊢
      rcases hrows with hkeep | ⟨hnone, hnil⟩
      · rw [hkeep, h]
      · rw [hnil, ← h, hnone]
        rfl
  | some last =>
      obtain ⟨rows, row, r, hd, hrow⟩ := h
      rcases hrows with hkeep | ⟨hnone, -⟩
      · exact ⟨rows, row, r, hkeep.trans hd, hrow⟩
      · rw [hnone] at hd
        cases hd

theorem WellFormed.of_kept {d d' : σ} (h : WellFormed rows? d)
    (hrows : rows? d' = rows? d ∨ rows? d = none ∧ rows? d' = some []) :
    WellFormed rows? d' := by
  intro rows hd' row hrow
  rcases hrows with hkeep | ⟨-, hnil⟩
  · exact h rows (hkeep ▸ hd') row hrow
  · obtain rfl : [] = rows := Option.some.inj (hnil ▸ hd')
    cases hrow

theorem Covers.of_kept {d d' : σ} {keys keys' : SequenceKeys}
    (h : Covers rows? d keys) (hkeys : keys.last ≤ keys'.last)
    (hrows : rows? d' = rows? d ∨ rows? d = none ∧ rows? d' = some []) :
    Covers rows? d' keys' := by
  intro rows hd' row hrow
  rcases hrows with hkeep | ⟨-, hnil⟩
  · exact UInt64.le_trans (h rows (hkeep ▸ hd') row hrow) hkeys
  · obtain rfl : [] = rows := Option.some.inj (hnil ▸ hd')
    cases hrow

/-- A store that adds no record, by its request or by failing, leaves the table
intact. -/
theorem Intact.looks {before : List Row} {events : List (Event ι)}
    {st : Stores ι σ} (h : Intact rows? before events st) (i : ι)
    {request : Request} {ok : Bool} {s : Session σ}
    (hnone : (Event.mk i request ok).committed? = none)
    (hlooks : Looks rows? (st.session i) ok s) :
    Intact rows? before (⟨i, request, ok⟩ :: events)
      ⟨s.database, Function.update st.keys i s.keys⟩ where
  wellFormed := h.wellFormed.of_kept hlooks.rows
  covers j hj := by
    by_cases hij : j = i
    · subst hij
      rw [InStep, if_pos rfl] at hj
      simp only [Function.update_self]
      rcases hj with ⟨hok, -⟩ | hj
      · exact hlooks.covers hok h.wellFormed
      · exact (h.covers j hj).of_kept hlooks.keys hlooks.rows
    · rw [InStep, if_neg (Ne.symm hij)] at hj
      simp only [Function.update_of_ne hij]
      exact (h.covers j hj.2).of_kept (UInt64.le_refl _) hlooks.rows
  shows := by
    rw [lastRecorded?_cons_of_none hnone]
    exact h.shows.of_kept hlooks.rows

theorem Intact.append {before : List Row} {events : List (Event ι)}
    {st : Stores ι σ} (h : Intact rows? before events st) (i : ι)
    (hi : InStep before i events) {now : UInt64} {r : VersionRecord}
    {rows : List Row} {s : Session σ}
    (hr : r.sequence = (st.keys i).issue now)
    (hkeys : s.keys = (st.keys i).issued now)
    (hrows : rows? st.database = some rows)
    (hnew : ∀ row ∈ rows, key row ≠ r.sequence)
    (hrows' : rows? s.database = some (rows ++ [parameters r])) :
    Intact rows? before
      (⟨i, .append now r.version r.dirty, true⟩ :: events)
      ⟨s.database, Function.update st.keys i s.keys⟩ := by
  have hbelow : ∀ row ∈ rows, key row < key (parameters r) := by
    intro row hrow
    have hle := h.covers i hi rows hrows row hrow
    rw [key_parameters]
    refine UInt64.lt_of_le_of_ne ?_ (hnew row hrow)
    rw [hr]
    exact UInt64.le_trans hle (SequenceKeys.le_issue (st.keys i) now)
  refine ⟨?_, ?_, ?_⟩
  · intro rows' hd row hrow
    obtain rfl : rows ++ [parameters r] = rows' :=
      Option.some.inj (hrows' ▸ hd)
    rcases List.mem_append.1 hrow with hrow | hrow
    · exact h.wellFormed rows hrows row hrow
    · obtain rfl := List.mem_singleton.1 hrow
      exact ⟨r, parseRecord_parameters r⟩
  · intro j hj
    by_cases hij : j = i
    · subst hij
      simp only [Function.update_self]
      have hlatest : IsLatest (rows ++ [parameters r]) (parameters r) := by
        refine ⟨by simp, fun other hother => ?_⟩
        rcases List.mem_append.1 hother with hother | hother
        · exact UInt64.le_of_lt (hbelow other hother)
        · obtain rfl := List.mem_singleton.1 hother
          exact UInt64.le_refl _
      refine covers_of_isLatest hrows' hlatest ?_
      rw [key_parameters, hr, hkeys]
      exact UInt64.le_refl _
    · -- The others are out of step now.
      rw [InStep, if_neg (Ne.symm hij)] at hj
      cases hj.1
  · have hlast : lastRecorded?
        (⟨i, .append now r.version r.dirty, true⟩ :: events) = some r.state :=
      lastRecorded?_cons_of_some rfl events
    rw [hlast]
    exact ⟨rows, parameters r, r, hrows', parseRecord_parameters r, rfl, hbelow⟩

theorem Intact.perform (hdb : Faithful db table rows?) {before : List Row}
    {events : List (Event ι)} {st : Stores ι σ}
    (h : Intact rows? before events st) (i : ι) (request : Request)
    (hstep : request.recorded?.isSome → InStep before i events) :
    Intact rows? before ((st.perform db table i request).1 :: events)
      (st.perform db table i request).2 := by
  rw [Stores.perform]
  cases request with
  | ensureTable =>
      have hlooks := ensureTable_looks hdb (st.session i)
      rw [Request.action, Action.run_bind_pure, isOk_map]
      exact h.looks i (by simp [Event.committed?, Request.recorded?]) hlooks
  | readCurrent =>
      have hlooks := (readCurrent_looks hdb (st.session i)).1
      rw [Request.action, Action.run_bind_pure, isOk_map]
      exact h.looks i (by simp [Event.committed?, Request.recorded?]) hlooks
  | append now version dirty =>
      obtain ⟨hkeys, hrun⟩ :=
        appendRecord_run hdb now version dirty (st.session i)
      rw [Request.action, Action.run_bind_pure, isOk_map]
      generalize (appendRecord db table now version dirty).run (st.session i) =
        run at hkeys hrun
      obtain ⟨result, s⟩ := run
      cases result with
      | error fault =>
          -- Failing to add a record only moves the keys.
          refine h.looks i rfl ⟨Or.inl hrun, ?_, nofun⟩
          rw [show s.keys = _ from hkeys]
          exact SequenceKeys.le_issue _ now
      | ok record =>
          obtain ⟨rfl, rows, hrows, hnew, hrows'⟩ := hrun
          exact h.append i (hstep rfl) rfl hkeys hrows hnew hrows'

end SchemaLedger.VersionStore
