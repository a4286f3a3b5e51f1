import SchemaLedger.Proofs.Driver.Traces
import SchemaLedger.Proofs.Version.Table
/-!
# Recording how a script went

Applying a script is running it and then adding one record, whatever came of the
run. `apply_run` says so for every database: the record is the last call, it is
clean if and only if the run succeeded, and the outcome tells what failed, the run,
the recording or both. A record that was added under a key above all others is what
is read from then on.
-/

namespace SchemaLedger

variable {σ : Type}

namespace MigrationError

/-- Faults of a script, as against those of the database around it. -/
def OfScript : MigrationError → Prop
  | input _ => True
  | statementFailed .. => True
  | statementNotText _ => True
  | _ => False

theorem OfScript.toList_eq {fault : MigrationError} (h : fault.OfScript) :
    fault.toList = [fault] := by
  cases fault <;> first | rfl | cases h

theorem OfScript.ne_multiple {fault : MigrationError} (h : fault.OfScript)
    (faults : List MigrationError) : fault ≠ .multiple faults := by
  rintro rfl
  cases h

theorem OfScript.ne_versionStore {fault : MigrationError} (h : fault.OfScript)
    (query : String) (cause : DatabaseError) :
    fault ≠ .versionStore query cause := by
  rintro rfl
  cases h

end MigrationError

theorem Execution.ofScript_of_run (db : Database σ) (statements : Statements)
    (done : Summary) (s : Session σ) {fault : MigrationError}
    (h : (run db statements done s).result = .error fault) :
    fault.OfScript := by
  fun_induction run db statements done s with
  | case1 => cases h
  | case2 => cases h; trivial
  | case3 => cases h; trivial
  | case4 _ _ _ _ _ _ _ _ _ _ _ ih => exact ih h
  | case5 => cases h; trivial
  | case6 _ _ _ _ _ _ _ _ _ _ _ _ _ _ _ _ _ ih => exact ih h

namespace VersionStore

/-- Records that are added are kept, and the latest of all is answered. -/
structure Remembers (db : Database σ) (table : String)
    (rows? : σ → Option (List Row)) : Prop where
  added (r : VersionRecord) (d d' : σ) (n : Nat) :
    db.step (.transact (insertSql table) (parameters r)) d = (.ok n, d') →
      ∃ rows, rows? d = some rows ∧ rows? d' = some (rows ++ [parameters r])
  latest (d d' : σ) (answer : List Row) :
    db.step (.query .data (latestSql table)) d = (.ok answer, d') →
      ∃ rows, rows? d = some rows ∧
        (rows = [] ∧ answer = [] ∨ ∃ row, IsLatest rows row ∧ answer = [row])

theorem Faithful.remembers {db : Database σ} {table : String}
    {rows? : σ → Option (List Row)} (h : Faithful db table rows?) :
    Remembers db table rows? where
  added r d d' n hstep := by
    have hinsert := h.insert r d
    rw [hstep] at hinsert
    obtain ⟨rows, hrows, -, hrows'⟩ := hinsert
    exact ⟨rows, hrows, hrows'⟩
  latest d d' answer hstep := by
    have hlatest := h.latest d
    rw [hstep] at hlatest
    exact hlatest.2

/-- Whoever reads the current record, and gets an answer, finds this state. -/
def IsCurrent (db : Database σ) (table : String) (d : σ)
    (state : VersionState) : Prop :=
  ∀ s : Session σ, s.database = d → ∀ answer d',
    db.step (.query .data (latestSql table)) d = (.ok answer, d') →
      ((readCurrent db table).run s).1 = .ok state

theorem Remembers.isCurrent {db : Database σ} {table : String}
    {rows? : σ → Option (List Row)} (h : Remembers db table rows?) {d : σ}
    {rows : List Row} {r : VersionRecord}
    (hrows : rows? d = some (rows ++ [parameters r]))
    (hkey : ∀ row ∈ rows, key row < r.sequence) :
    IsCurrent db table d r.state := by
  rintro s rfl answer d' hstep
  obtain ⟨_, hcall, -⟩ := Session.call_of_step hstep
  obtain ⟨rows', hrows', hanswer⟩ := h.latest _ d' answer hstep
  obtain rfl : rows ++ [parameters r] = rows' := Option.some.inj (hrows ▸ hrows')
  rcases hanswer with ⟨hnil, -⟩ | ⟨row, hrow, rfl⟩
  · simp at hnil
  · obtain rfl := eq_of_isLatest_append_singleton hkey hrow
    rw [run_readCurrent_of_row hcall, parseRecord_parameters]

end VersionStore

namespace Driver

open VersionStore

variable (d : Driver σ) (now : UInt64) (version : Int64)

def recordingFault (cause : DatabaseError) : MigrationError :=
  .versionStore (insertSql d.config.migrationsTable) cause

def insertion (r : VersionRecord) : Call :=
  .transact (insertSql d.config.migrationsTable) (parameters r)

theorem setVersion_run (dirty : Bool) (s : Session σ) :
    let answer := d.database.step
      (d.insertion ⟨s.keys.issue now, version, dirty⟩) s.database
    let r := (d.setVersion now version dirty).run s
    r.1 = (answer.1.mapError d.recordingFault).map (fun _ => ()) ∧
      r.2.database = answer.2 ∧ r.2.keys = s.keys.issued now := by
  intro answer r
  have hr : r = _ := Action.run_bind_pure _ (fun _ => ()) s
  obtain ⟨hresult, hdatabase, hkeys⟩ := run_appendRecord d.database
    d.config.migrationsTable now version dirty s
  rw [hr]
  refine ⟨?_, hdatabase, hkeys⟩
  rw [hresult]
  change ((answer.1.mapError d.recordingFault).map _).map _ = _
  cases answer.1 <;> rfl

/-- What applying a script comes to, by what came of running it and of recording
that. -/
def outcome : Except MigrationError Summary → Except DatabaseError Nat →
    Except MigrationError Summary
  | .ok summary, .ok _ => .ok summary
  | .ok _, .error cause => .error (d.recordingFault cause)
  | .error fault, .ok _ => .error fault
  | .error fault, .error cause =>
    .error (.multiple [fault, d.recordingFault cause])

theorem ofScript_of_run {script : Source} {s : Session σ}
    {fault : MigrationError} (h : ((d.run script).run s).1 = .error fault) :
    fault.OfScript :=
  Execution.ofScript_of_run d.database _ _ s h

def recordOf (s : Session σ) (ran : Bool) : VersionRecord :=
  ⟨s.keys.issue now, version, !ran⟩

theorem apply_run_of_ok {script : Source} {s s₁ : Session σ} {summary : Summary}
    (h : (d.run script).run s = (.ok summary, s₁)) :
    let recorded := (d.setVersion now version false).run s₁
    let a := (d.apply now version script).run s
    a.1 = recorded.1.map (fun _ => summary) ∧
      a.2.database = recorded.2.database ∧ a.2.keys = recorded.2.keys := by
  intro recorded a
  have hattempt : (Action.attempt (d.run script)).run s = (.ok (.ok summary), s₁) := by
    rw [Action.run_attempt, h]
  have ha : a = _ := Action.run_bind_of_ok hattempt _
  rw [ha]
  simp only
  cases hset : (d.setVersion now version false).run s₁ with
  | mk result s₂ =>
      cases result with
      | error fault =>
          rw [show recorded = _ from hset, Action.run_bind_of_error hset]
          exact ⟨rfl, rfl, rfl⟩
      | ok _ =>
          rw [show recorded = _ from hset, Action.run_bind_of_ok hset,
            Action.run_bind_of_ok (Action.run_log _ _ s₂), Action.run_pure]
          exact ⟨rfl, rfl, rfl⟩

theorem apply_run_of_error {script : Source} {s s₁ : Session σ}
    {fault : MigrationError} (h : (d.run script).run s = (.error fault, s₁)) :
    let recorded := (d.setVersion now version true).run (s₁.logged .warn
      ("Migration to version " ++ toString version
        ++ " failed, marking it dirty: " ++ fault.message))
    let a := (d.apply now version script).run s
    a.1 = (match recorded.1 with
      | .ok _ => .error fault
      | .error recording => .error (fault.combine recording)) ∧
      a.2.database = recorded.2.database ∧ a.2.keys = recorded.2.keys := by
  intro recorded a
  have hattempt : (Action.attempt (d.run script)).run s =
      (.ok (.error fault), s₁) := by
    rw [Action.run_attempt, h]
  have ha : a = _ := Action.run_bind_of_ok hattempt _
  rw [ha]
  simp only
  rw [Action.run_bind_of_ok (Action.run_log _ _ s₁),
    Action.run_bind_of_ok (Action.run_attempt _ _)]
  change _ = (match recorded.1 with
    | .ok _ => _
    | .error recording => _) ∧ _
  cases recorded.1 <;> exact ⟨rfl, rfl, rfl⟩

theorem outcome_ok (summary : Summary) (answer : Except DatabaseError Nat) :
    d.outcome (.ok summary) answer =
      ((answer.mapError d.recordingFault).map fun _ => ()).map
        fun _ => summary := by
  cases answer <;> rfl

theorem outcome_error {fault : MigrationError} (h : fault.OfScript)
    (answer : Except DatabaseError Nat) :
    d.outcome (.error fault) answer =
      match (answer.mapError d.recordingFault).map fun _ => () with
      | .ok _ => .error fault
      | .error recording => .error (fault.combine recording) := by
  cases answer with
  | ok n => rfl
  | error cause =>
      change _ = Except.error (fault.combine (d.recordingFault cause))
      rw [MigrationError.combine, h.toList_eq]
      rfl

theorem apply_run (script : Source) (s : Session σ) :
    let r := (d.run script).run s
    let record := recordOf now version s r.1.isOk
    let answer := d.database.step (d.insertion record) r.2.database
    let a := (d.apply now version script).run s
    a.1 = d.outcome r.1 answer.1 ∧ a.2.database = answer.2 ∧
      a.2.keys = s.keys.issued now := by
  have hkeys := keys_run d script s
  cases hr : (d.run script).run s with
  | mk result s₁ =>
      simp only [hr] at hkeys
      cases result with
      | ok summary =>
          obtain ⟨hresult, hdatabase, hissued⟩ := apply_run_of_ok d now version hr
          obtain ⟨hset, hset', hset''⟩ := setVersion_run d now version false s₁
          rw [hkeys] at hset hset' hset''
          refine ⟨?_, hdatabase.trans hset', hissued.trans hset''⟩
          rw [hresult, hset]
          exact (outcome_ok d summary _).symm
      | error fault =>
          have hscript : fault.OfScript := ofScript_of_run d (by rw [hr])
          obtain ⟨hresult, hdatabase, hissued⟩ :=
            apply_run_of_error d now version hr
          obtain ⟨hset, hset', hset''⟩ :=
            setVersion_run d now version true (s₁.logged .warn _)
          rw [Session.keys_logged, hkeys] at hset hset' hset''
          refine ⟨?_, hdatabase.trans hset', hissued.trans hset''⟩
          rw [hresult, hset]
          exact (outcome_error d hscript _).symm

/-- A script that is applied makes the calls of its run, then adds the record, and
makes no other call. -/
theorem apply_recorded (script : Source) (s : Session σ) (calls : List Call) :
    let ran := (d.recorded.run script).run (s.recording calls)
    let record := recordOf now version s ((d.run script).run s).1.isOk
    ((d.recorded.apply now version script).run (s.recording calls)).2.database =
      (((d.apply now version script).run s).2.database,
        ran.2.database.2 ++ [d.insertion record]) := by
  intro ran record
  obtain ⟨made, -, -, hran⟩ := run_recorded d script s
  have happly := (apply_run d now version script s).2.1
  have hrecorded :=
    (apply_run d.recorded now version script (s.recording calls)).2.1
  rw [hran calls] at hrecorded
  rw [hrecorded, happly, show ran = _ from hran calls]
  rfl

section Outcomes

variable {result : Except MigrationError Summary}
  {answer : Except DatabaseError Nat}

theorem outcome_eq_ok_iff {summary : Summary} :
    d.outcome result answer = .ok summary ↔
      result = .ok summary ∧ answer.isOk = true := by
  cases result <;> cases answer <;> simp [outcome]

theorem outcome_eq_fault_iff {fault : MigrationError} (h : fault.OfScript) :
    d.outcome (.error fault) answer = .error fault ↔ answer.isOk = true := by
  cases answer with
  | ok n => simp [outcome]
  | error cause =>
      have hne := (h.ne_multiple [fault, d.recordingFault cause]).symm
      simp [outcome, hne]

theorem outcome_eq_recordingFault_iff
    (hresult : ∀ fault, result = .error fault → fault.OfScript)
    {cause : DatabaseError} :
    d.outcome result answer = .error (d.recordingFault cause) ↔
      result.isOk = true ∧ answer = .error cause := by
  cases result with
  | ok summary => cases answer <;> simp [outcome, recordingFault]
  | error fault =>
      have hne := (hresult fault rfl).ne_versionStore
      cases answer <;> simp [outcome, recordingFault, hne]

theorem outcome_eq_multiple_iff
    (hresult : ∀ fault, result = .error fault → fault.OfScript)
    {faults : List MigrationError} :
    d.outcome result answer = .error (.multiple faults) ↔
      ∃ fault cause, result = .error fault ∧ answer = .error cause ∧
        faults = [fault, d.recordingFault cause] := by
  cases result with
  | ok summary => cases answer <;> simp [outcome, recordingFault]
  | error fault =>
      have hne := (hresult fault rfl).ne_multiple
      cases answer <;> simp [outcome, hne, eq_comm]

theorem isOk_of_outcome
    (h : ∀ fault, d.outcome result answer = .error fault →
      ∀ query cause, .versionStore query cause ∉ fault.toList) :
    answer.isOk = true ∧ d.outcome result answer = result := by
  cases answer with
  | ok n => cases result <;> exact ⟨rfl, rfl⟩
  | error cause =>
      cases result with
      | ok summary =>
          have hnone := h _ rfl (insertSql d.config.migrationsTable) cause
          exact absurd (List.mem_singleton_self _) hnone
      | error fault =>
          have hnone := h _ rfl (insertSql d.config.migrationsTable) cause
          exact absurd (List.mem_cons_of_mem _ (List.mem_singleton_self _)) hnone

end Outcomes

theorem insertion_recordOf (s : Session σ) (ran : Bool) :
    d.insertion (recordOf now version s ran) =
      .transact (insertSql d.config.migrationsTable)
        [.ubigint (s.keys.issue now), .bigint version,
          .ubigint (if ran then 0 else 1)] := by
  cases ran <;> rfl

theorem isCurrent_of_apply {rows? : σ → Option (List Row)}
    (h : Remembers d.database d.config.migrationsTable rows?) {script : Source}
    {s : Session σ}
    (hkey : ∀ rows, rows? ((d.run script).run s).2.database = some rows →
      ∀ row ∈ rows, key row < s.keys.issue now)
    {result : Except MigrationError Summary}
    (happly : ((d.apply now version script).run s).1 = result)
    (hrecorded : ∀ fault, result = .error fault →
      ∀ query cause, .versionStore query cause ∉ fault.toList) :
    IsCurrent d.database d.config.migrationsTable
      ((d.apply now version script).run s).2.database
      ⟨version, !result.isOk⟩ := by
  obtain ⟨hresult, hdatabase, -⟩ := apply_run d now version script s
  rw [happly] at hresult
  rw [hresult] at hrecorded
  obtain ⟨hok, hsame⟩ := isOk_of_outcome d hrecorded
  rw [hresult, hsame, hdatabase]
  cases hstep : d.database.step _ ((d.run script).run s).2.database with
  | mk answer after =>
      rw [hstep] at hok
      cases answer with
      | error cause => cases hok
      | ok n =>
          obtain ⟨rows, hrows, hrows'⟩ := h.added _ _ after n hstep
          exact h.isCurrent hrows' (hkey rows hrows)

/-- Applying a script makes the calls of its run and then adds one record, under
a fresh key, which is clean if and only if the run succeeded. The run, the
recording, or both may fail, and the outcome tells which did. Where added records
are remembered and the key lies above all others, the version is current
afterwards: clean if applying it succeeded, and dirty if it failed with no fault
of the recording. -/
theorem apply_records_once (script : Source) (s : Session σ) :
    let r := (d.run script).run s
    let record : VersionRecord := ⟨s.keys.issue now, version, !r.1.isOk⟩
    let answer := d.database.step (d.insertion record) r.2.database
    let a := (d.apply now version script).run s
    (∀ calls, ((d.recorded.apply now version script).run
        (s.recording calls)).2.database =
      (a.2.database, ((d.recorded.run script).run
        (s.recording calls)).2.database.2 ++ [d.insertion record])) ∧
    d.insertion record = .transact (insertSql d.config.migrationsTable)
      [.ubigint (s.keys.issue now), .bigint version,
        .ubigint (if r.1.isOk then 0 else 1)] ∧
    (s.keys.last ≠ SequenceKeys.maxKey → s.keys.last < s.keys.issue now) ∧
    a.2.database = answer.2 ∧ a.2.keys.last = s.keys.issue now ∧
    (∀ summary, a.1 = .ok summary ↔
      r.1 = .ok summary ∧ answer.1.isOk = true) ∧
    (∀ fault, r.1 = .error fault →
      (a.1 = .error fault ↔ answer.1.isOk = true)) ∧
    (∀ cause, a.1 = .error (d.recordingFault cause) ↔
      r.1.isOk = true ∧ answer.1 = .error cause) ∧
    (∀ faults, a.1 = .error (.multiple faults) ↔
      ∃ fault cause, r.1 = .error fault ∧ answer.1 = .error cause ∧
        faults = [fault, d.recordingFault cause]) ∧
    ∀ rows? : σ → Option (List Row),
      Remembers d.database d.config.migrationsTable rows? →
      (∀ rows, rows? r.2.database = some rows → ∀ row ∈ rows,
        key row < record.sequence) →
      (∀ summary, a.1 = .ok summary →
        IsCurrent d.database d.config.migrationsTable a.2.database
          ⟨version, false⟩) ∧
      ∀ fault, a.1 = .error fault →
        (∀ query cause, .versionStore query cause ∉ fault.toList) →
        IsCurrent d.database d.config.migrationsTable a.2.database
          ⟨version, true⟩ := by
  intro r record answer a
  obtain ⟨hresult, hdatabase, hkeys⟩ := apply_run d now version script s
  have hscript : ∀ fault, r.1 = .error fault → fault.OfScript :=
    fun _ h => ofScript_of_run d h
  have ha : a.1 = d.outcome r.1 answer.1 := hresult
  refine ⟨apply_recorded d now version script s,
    insertion_recordOf d now version s _,
    fun hlast => SequenceKeys.lt_issue hlast now, hdatabase,
    congrArg SequenceKeys.last hkeys, fun summary => ?_, fun fault hfault => ?_,
    fun cause => ?_, fun faults => ?_, fun rows? hdb hkey => ⟨?_, ?_⟩⟩
  · rw [ha]
    exact outcome_eq_ok_iff d
  · rw [ha, hfault]
    exact outcome_eq_fault_iff d (hscript fault hfault)
  · rw [ha]
    exact outcome_eq_recordingFault_iff d hscript
  · rw [ha]
    exact outcome_eq_multiple_iff d hscript
  · intro summary hok
    exact isCurrent_of_apply d now version hdb hkey hok nofun
  · intro fault hfault hnone
    refine isCurrent_of_apply d now version hdb hkey hfault ?_
    rintro _ ⟨⟩
    exact hnone

/-- A script that cannot be read, applied over a record with a greater key than
the clock gives. -/
theorem apply_records_once_of_failing_read :
    let d : Driver (Option (List Row)) :=
      ⟨soleTable "versions", { migrationsTable := "versions" }⟩
    let s : Session (Option (List Row)) :=
      { database := some [parameters ⟨5, 1, false⟩], keys := ⟨5⟩ }
    let a := (d.apply 3 2 [.failed "disk"]).run s
    a.1 = .error (.input (.scriptUnreadable "disk")) ∧
      a.2.database = some [parameters ⟨5, 1, false⟩, parameters ⟨6, 2, true⟩] ∧
      IsCurrent d.database "versions" a.2.database ⟨2, true⟩ := by
  intro d s a
  have hran : ((d.run [.failed "disk"]).run s).1 =
      .error (.input (.scriptUnreadable "disk")) := by cbv
  have hkept : ((d.run [.failed "disk"]).run s).2.database = s.database := by
    decide +kernel
  have hrows : a.2.database =
      some [parameters ⟨5, 1, false⟩, parameters ⟨6, 2, true⟩] := by
    decide +kernel
  obtain ⟨-, -, -, -, -, -, hfault, -, -, hcurrent⟩ :=
    apply_records_once d 3 2 [.failed "disk"] s
  have hfailed := (hfault _ hran).2 (by decide +kernel)
  refine ⟨hfailed, hrows, ((hcurrent id (soleTable_faithful _).remembers) ?_).2 _
    hfailed (by simp [MigrationError.toList])⟩
  rw [hkept]
  rintro rows ⟨⟩
  decide +kernel

end Driver

end SchemaLedger
