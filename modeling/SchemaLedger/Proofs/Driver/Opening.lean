import SchemaLedger.Proofs.Driver.Crash
import SchemaLedger.Proofs.Driver.Locking
import SchemaLedger.Proofs.Version.Opening
/-!
# Opening a driver

What is true of a database and a session once a driver has opened on them: the table
exists, with the rows that it had before, the keys cover it, and the lock is free.
The calls made on the way are those that look for the table and at its greatest key,
or create it, `connect_calls`.
-/

namespace SchemaLedger

variable {σ : Type}

namespace VersionStore

variable {db : Database σ} {table : String} {rows? : σ → Option (List Row)}

/-- What is done about the table once it has been looked for: its greatest key is
asked for, or it is created. -/
def Settles (table : String) (c : Call) : Prop :=
  c = .query .data (maxKeySql table) ∨ c = .execute .schema (createSql table)

/-- The calls that make sure of the table. All of them have been made if that has
succeeded. -/
theorem ensureTable_calls (db : Database σ) (table : String) (s : Session σ) :
    let r := (ensureTable db table).run s
    ∃ c made, Settles table c ∧ made <+: [.relationExists table, c] ∧
      (r.1.isOk = true → made = [.relationExists table, c]) ∧
      r.2.database = db.after made s.database := by
  intro r
  cases hcall : s.call db (.relationExists table) with
  | mk answer s' =>
      have hstep := Session.step_of_call hcall
      cases answer with
      | error cause =>
          have hr : r = _ := Action.run_call_bind_of_error hcall _ _
          refine ⟨_, [.relationExists table], Or.inl rfl, ⟨[_], rfl⟩, ?_, ?_⟩
          · rw [hr]
            exact nofun
          · rw [hr, Database.after_cons, hstep]
            rfl
      | ok found =>
          cases found with
          | true =>
              refine ⟨_, _, Or.inl rfl, List.prefix_refl _, fun _ => rfl, ?_⟩
              rw [Database.after_cons, hstep]
              exact (ensureTable_of_found hcall).1
          | false =>
              refine ⟨_, _, Or.inr rfl, List.prefix_refl _, fun _ => rfl, ?_⟩
              rw [Database.after_cons, hstep]
              exact (ensureTable_of_missing hcall).1

theorem exists_of_observeStored (h : Faithful db table rows?) {s s' : Session σ}
    (hrun : (observeStored db table).run s = (.ok (), s')) :
    ∃ rows, rows? s'.database = some rows := by
  obtain ⟨answer, s₁, hcall, -⟩ := Action.exists_of_run_bind hrun
  have hstep := Session.step_of_call (Action.call_of_run_call hcall)
  have hdatabase := database_observeStored db table s
  have hmax := h.maxKey s.database
  rw [hrun, hstep] at hdatabase
  rw [hstep] at hmax
  obtain ⟨hkept, rows, hrows, -⟩ := hmax
  exact ⟨rows, hdatabase ▸ hkept.trans hrows⟩

theorem exists_of_ensureTable (h : Faithful db table rows?) {s s' : Session σ}
    {created : Bool} (hrun : (ensureTable db table).run s = (.ok created, s')) :
    ∃ rows, rows? s'.database = some rows := by
  obtain ⟨found, s₁, -, hrun⟩ := Action.exists_of_run_bind hrun
  cases found with
  | true =>
      obtain ⟨_, s₂, -, hrun⟩ := Action.exists_of_run_bind hrun
      obtain ⟨_, s₃, hstored, hend⟩ := Action.exists_of_run_bind hrun
      cases hend
      exact exists_of_observeStored h hstored
  | false =>
      obtain ⟨n, s₂, hcreate, hrun⟩ := Action.exists_of_run_bind hrun
      obtain ⟨_, s₃, hlog, hend⟩ := Action.exists_of_run_bind hrun
      cases hlog
      cases hend
      have hcreated := h.create s₁.database
      rw [Session.step_of_call (Action.call_of_run_call hcreate)] at hcreated
      exact ⟨[], hcreated.2⟩

theorem Kept.rows_eq {d d' : σ} {rows : List Row} (h : Kept rows? d d')
    (hrows : rows? d' = some rows) : rows? d' = some (stored rows? d) := by
  rw [← h.stored_eq, stored, hrows]
  rfl

/-- The table exists with the rows from before, and a session is ready to add to
them. -/
structure Ready (rows? : σ → Option (List Row)) (d : σ) (s : Session σ) :
    Prop where
  rows : rows? s.database = some (stored rows? d)
  covers : WellFormed rows? d → Covers rows? s.database s.keys
  lock : s.lock = {}

theorem Ready.kept {d : σ} {s : Session σ} (h : Ready rows? d s) :
    Kept rows? d s.database := by
  rw [Kept, h.rows, stored]
  cases rows? d with
  | none => exact Or.inr ⟨rfl, rfl⟩
  | some rows => exact Or.inl rfl

end VersionStore

open VersionStore

namespace Driver

variable {db : Database σ} {given : Config} {rows? : σ → Option (List Row)}

theorem ready_of_connect (h : Faithful db given.normalized.migrationsTable rows?)
    (hping : ∀ d, rows? (db.step .ping d).2 = rows? d) {s s' : Session σ}
    {opened : Driver σ}
    (hrun : (connect db (some given)).run s = (.ok opened, s')) :
    Ready rows? s.database s' := by
  have hkept := connect_keeps h hping s
  rw [hrun] at hkept
  rcases connect_cases db given s with
    ⟨cause, -, hresult, -⟩ | ⟨fresh, hfresh, -, hresult, hdatabase, hkeys, hlock⟩
  · rw [hrun] at hresult
    cases hresult
  · rw [hrun] at hresult hdatabase hkeys hlock
    have hlooks := ensureTable_looks h fresh
    have hrows : rows? fresh.database = rows? s.database := by
      rw [hfresh, hping]
    cases hlooked : (VersionStore.ensureTable db
        given.normalized.migrationsTable).run fresh with
    | mk result s₁ =>
        rw [hlooked] at hresult hdatabase hkeys
        simp only [hlooked] at hlooks
        cases result with
        | error fault => cases hresult
        | ok created =>
            obtain ⟨rows, hexists⟩ := exists_of_ensureTable h hlooked
            refine ⟨hkept.rows_eq (hdatabase ▸ hexists), fun hwf => ?_, hlock⟩
            have hcovers := hlooks.covers rfl (by rwa [WellFormed, hrows])
            rw [Covers, show s'.database = _ from hdatabase,
              show s'.keys = _ from hkeys]
            exact hcovers

theorem connect_calls (db : Database σ) (given : Config) (s : Session σ) :
    let table := given.normalized.migrationsTable
    let r := (connect db (some given)).run s
    ∃ c made, Settles table c ∧ made <+: [.ping, .relationExists table, c] ∧
      (r.1.isOk = true → made = [.ping, .relationExists table, c]) ∧
      r.2.database = db.after made s.database := by
  intro table r
  rcases connect_cases db given s with
    ⟨cause, -, hresult, hdatabase⟩ | ⟨fresh, hfresh, -, hresult, hdatabase, -⟩
  · refine ⟨_, [.ping], Or.inl rfl, ⟨[_, _], rfl⟩, ?_, hdatabase⟩
    rw [show r.1 = _ from hresult]
    exact nofun
  · obtain ⟨c, made, hc, hmade, hall, hafter⟩ := ensureTable_calls db table fresh
    refine ⟨c, .ping :: made, hc, List.prefix_cons_iff.2 (Or.inr ⟨made, rfl, hmade⟩),
      fun hok => ?_, ?_⟩
    · rw [show r.1 = _ from hresult, isOk_map] at hok
      rw [hall hok]
    · rw [Database.after_cons, ← hfresh, ← hafter]
      exact hdatabase

theorem version_calls (d : Driver σ) (s : Session σ) :
    (d.version.run s).2.database =
      d.database.after [.query .data (latestSql d.config.migrationsTable)]
        s.database := by
  cases hcall : s.call d.database
      (.query .data (latestSql d.config.migrationsTable)) with
  | mk answer s' =>
      rw [Database.after_cons, Session.step_of_call hcall]
      cases answer with
      | error cause =>
          rw [version, readCurrent, Action.run_call_bind_of_error hcall]
          rfl
      | ok rows =>
          rw [version, readCurrent, Action.run_call_bind_of_ok hcall]
          cases rows with
          | nil => rfl
          | cons row rows =>
              simp only
              cases parseRecord row <;> rfl

theorem ready_of_version {d : Driver σ}
    (h : Faithful d.database d.config.migrationsTable rows?) {e : σ}
    {s s' : Session σ} (hready : Ready rows? e s) (hwf : WellFormed rows? e)
    {state : VersionState} (hrun : d.version.run s = (.ok state, s')) :
    Ready rows? e s' ∧ Stands (stored rows? e) state := by
  obtain ⟨hlooks, hanswer⟩ := readCurrent_looks h s
  have hlock := (readCurrent_ignoresLock d.database
    d.config.migrationsTable).lock_run s
  have hrun' : (readCurrent d.database d.config.migrationsTable).run s =
    (.ok state, s') := hrun
  simp only [hrun'] at hlooks hanswer hlock
  have hwf' : WellFormed rows? s.database := hwf.of_kept hready.kept
  have hrows : rows? s'.database = some (stored rows? e) := by
    rcases hlooks.rows with hkeep | ⟨hnone, -⟩
    · exact hkeep.trans hready.rows
    · rw [hready.rows] at hnone
      cases hnone
  refine ⟨⟨hrows, fun _ => hlooks.covers rfl hwf', hlock.trans hready.lock⟩, ?_⟩
  cases hquery : d.database.step
      (.query .data (latestSql d.config.migrationsTable)) s.database with
  | mk answer e' =>
      cases answer with
      | ok answer =>
          obtain ⟨rows, state', hrows', hstands, hstate⟩ :=
            hanswer answer e' hquery hwf'
          cases hstate
          obtain rfl : stored rows? e = rows :=
            Option.some.inj (hready.rows ▸ hrows')
          exact hstands
      | error cause =>
          obtain ⟨_, hcall, -⟩ := Session.call_of_step hquery
          rw [readCurrent, Action.run_call_bind_of_error hcall] at hrun'
          cases hrun'

end Driver

end SchemaLedger
