import SchemaLedger.Proofs.Driver.Traces
import SchemaLedger.Proofs.Version.Table
/-!
# Opening a migrations table

What a store does to make sure of its table, told by the answers of the database:
if the lookup finds the table, the greatest key is asked for and nothing is
created; otherwise the table is created, and a failure of that is a fault of the
setup.
-/

namespace SchemaLedger.VersionStore

variable {σ : Type} {db : Database σ} {table : String} {s s' : Session σ}

/-- The answer is a single key, or nothing where a key could be. -/
def IsKeyAnswer (rows : List Row) : Prop :=
  rows = [[.null]] ∨ ∃ key, rows = [[.ubigint key]]

theorem run_observeStored_of_ok {rows : List Row}
    (hcall : s.call db (.query .data (maxKeySql table)) = (.ok rows, s')) :
    ((observeStored db table).run s).2.database = s'.database ∧
      (IsKeyAnswer rows → ((observeStored db table).run s).1 = .ok ()) := by
  have hobserve : ∀ row : Row,
      ((column (maxKeySql table) (row.getUInt64 0) >>= observe).run s').2.database
        = s'.database := by
    intro row
    have hcolumn := run_column (maxKeySql table) (row.getUInt64 0) s'
    cases hkey : row.getUInt64 0 with
    | error cause =>
        rw [hkey] at hcolumn
        rw [Action.run_bind_of_error hcolumn]
    | ok key =>
        rw [hkey] at hcolumn
        rw [Action.run_bind_of_ok hcolumn, run_observe]
  rw [observeStored, Action.run_call_bind_of_ok hcall]
  constructor
  · match rows with
    | [] => rfl
    | [] :: _ => rfl
    | (v :: row) :: _ =>
        cases v with
        | null => rfl
        | _ => exact hobserve _
  · rintro (rfl | ⟨key, rfl⟩)
    · rfl
    · rfl

theorem database_observeStored (db : Database σ) (table : String)
    (s : Session σ) :
    ((observeStored db table).run s).2.database =
      (db.step (.query .data (maxKeySql table)) s.database).2 := by
  cases hcall : s.call db (.query .data (maxKeySql table)) with
  | mk answer s' =>
      rw [Session.step_of_call hcall]
      cases answer with
      | error cause =>
          rw [observeStored, Action.run_call_bind_of_error hcall]
      | ok rows => exact (run_observeStored_of_ok hcall).1

theorem run_ensureTable_of_found
    (hfound : s.call db (.relationExists table) = (.ok true, s')) :
    let found := s'.logged .debug ("Migrations table " ++ table ++ " already exists")
    let stored := (observeStored db table).run found
    (ensureTable db table).run s = (stored.1.map fun _ => false, stored.2) := by
  intro found stored
  rw [ensureTable, Action.run_call_bind_of_ok hfound, if_pos rfl,
    Action.run_bind_of_ok (Action.run_log _ _ s'), Action.run_bind_pure]

/-- A store that finds its table asks for the greatest key and creates nothing. -/
theorem ensureTable_of_found
    (hfound : s.call db (.relationExists table) = (.ok true, s')) :
    let key := db.step (.query .data (maxKeySql table)) s'.database
    let r := (ensureTable db table).run s
    r.2.database = key.2 ∧ r.1 ≠ .ok true ∧
      ((∃ rows, key.1 = .ok rows ∧ IsKeyAnswer rows) → r.1 = .ok false) := by
  intro key r
  let found := s'.logged .debug ("Migrations table " ++ table ++ " already exists")
  rw [show r = _ from run_ensureTable_of_found hfound]
  refine ⟨database_observeStored db table found, ?_, ?_⟩
  · cases ((observeStored db table).run found).1 <;> simp [Except.map]
  · rintro ⟨rows, hrows, hkey⟩
    have hstep : db.step (.query .data (maxKeySql table)) found.database =
        (.ok rows, key.2) :=
      Prod.ext hrows rfl
    obtain ⟨_, hcall, -⟩ := Session.call_of_step hstep
    rw [(run_observeStored_of_ok hcall).2 hkey]
    rfl

/-- A store that does not find its table creates it, or fails in doing so. -/
theorem ensureTable_of_missing
    (hmissing : s.call db (.relationExists table) = (.ok false, s')) :
    let creation := db.step (.execute .schema (createSql table)) s'.database
    let r := (ensureTable db table).run s
    r.2.database = creation.2 ∧
      r.1 = (creation.1.mapError (.tableSetup (createSql table))).map
        fun _ => true := by
  intro creation r
  have hstep : db.step (.execute .schema (createSql table)) s'.database =
      (creation.1, creation.2) := rfl
  obtain ⟨s'', hcreation, hdatabase⟩ := Session.call_of_step hstep
  have hr : r = (ensureTable db table).run s := rfl
  rw [ensureTable, Action.run_call_bind_of_ok hmissing, if_neg (by simp)] at hr
  rw [hr, ← hdatabase]
  cases hanswer : creation.1 with
  | error cause =>
      rw [hanswer] at hcreation
      rw [Action.run_call_bind_of_error hcreation]
      exact ⟨rfl, rfl⟩
  | ok n =>
      rw [hanswer] at hcreation
      rw [Action.run_call_bind_of_ok hcreation,
        Action.run_bind_of_ok (Action.run_log _ _ _), Action.run_pure]
      exact ⟨rfl, rfl⟩

theorem created_of_ensureTable
    (h : (ensureTable db table).run s = (.ok true, s')) :
    ∃ d n, db.step (.relationExists table) s.database = (.ok false, d) ∧
      db.step (.execute .schema (createSql table)) d = (.ok n, s'.database) := by
  cases hcall : s.call db (.relationExists table) with
  | mk answer s₁ =>
      refine ⟨s₁.database, ?_⟩
      rw [Session.step_of_call hcall]
      cases answer with
      | error cause =>
          rw [ensureTable, Action.run_call_bind_of_error hcall] at h
          cases h
      | ok found =>
          cases found with
          | true =>
              have hfound := (ensureTable_of_found hcall).2.1
              rw [h] at hfound
              exact absurd rfl hfound
          | false =>
              obtain ⟨hdatabase, hresult⟩ := ensureTable_of_missing hcall
              rw [h] at hdatabase hresult
              cases hanswer : db.step (.execute .schema (createSql table))
                  s₁.database with
              | mk answer d =>
                  rw [hanswer] at hdatabase hresult
                  cases answer with
                  | error cause => cases hresult
                  | ok n => exact ⟨n, rfl, by rw [hdatabase]⟩

section Recorded

theorem call_lookup_recording {found : Bool}
    (h : (db.step (.relationExists table) s.database).1 = .ok found) :
    ∃ s' : Session (σ × List Call),
      (s.recording []).call db.recorded (.relationExists table) =
        (.ok found, s') ∧
      s'.database = ((db.step (.relationExists table) s.database).2,
        [.relationExists table]) := by
  refine ⟨(s.call db (.relationExists table)).2.recording
    [.relationExists table], ?_, ?_⟩
  · rw [Session.call_recording, Session.call_fst, h]
    rfl
  · rw [Session.recording, Session.database_call]

theorem ensureTable_recorded_of_found
    (h : (db.step (.relationExists table) s.database).1 = .ok true) :
    let key := db.step (.query .data (maxKeySql table))
      (db.step (.relationExists table) s.database).2
    let r := (ensureTable db.recorded table).run (s.recording [])
    r.2.database =
        (key.2, [.relationExists table, .query .data (maxKeySql table)]) ∧
      r.1 ≠ .ok true ∧
      ((∃ rows, key.1 = .ok rows ∧ IsKeyAnswer rows) → r.1 = .ok false) := by
  obtain ⟨s', hcall, hdatabase⟩ := call_lookup_recording h
  have hfound := ensureTable_of_found hcall
  rw [hdatabase] at hfound
  exact hfound

theorem ensureTable_recorded_of_missing
    (h : (db.step (.relationExists table) s.database).1 = .ok false) :
    let creation := db.step (.execute .schema (createSql table))
      (db.step (.relationExists table) s.database).2
    let r := (ensureTable db.recorded table).run (s.recording [])
    r.2.database = (creation.2,
        [.relationExists table, .execute .schema (createSql table)]) ∧
      r.1 = (creation.1.mapError (.tableSetup (createSql table))).map
        fun _ => true := by
  obtain ⟨s', hcall, hdatabase⟩ := call_lookup_recording h
  have hmissing := ensureTable_of_missing hcall
  rw [hdatabase] at hmissing
  exact hmissing

end Recorded

end SchemaLedger.VersionStore
