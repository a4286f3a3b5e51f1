import SchemaLedger.Proofs.Driver.Exclusion
import SchemaLedger.Proofs.Driver.Recording
/-!
# The lock of a driver

A driver has a lock for its callers. Opening a driver takes it while the table is
looked for and gives it back whatever came of that, so that an opened driver is
free, `connect_lock`. From then on only `lock` and `unlock` move it. Everything else
is `Action.IgnoresLock`: it runs the same whether or not the lock is held, and no
fault of it speaks of the lock. That property passes from the steps of an operation
to the whole of it.
-/

namespace SchemaLedger

variable {σ : Type}

namespace MigrationError

/-- A fault is one of the lock, or an aggregate with one in it. -/
inductive MentionsLock : MigrationError → Prop
  | lock (fault : LockError) : MentionsLock (.lock fault)
  | multiple {fault : MigrationError} {faults : List MigrationError} :
      fault ∈ faults → MentionsLock fault → MentionsLock (.multiple faults)

theorem mentionsLock_iff_toList (fault : MigrationError) :
    fault.MentionsLock ↔ ∃ f ∈ fault.toList, f.MentionsLock := by
  cases fault with
  | multiple faults =>
      exact ⟨fun | .multiple hmem h => ⟨_, hmem, h⟩,
        fun ⟨_, hmem, h⟩ => .multiple hmem h⟩
  | _ => simp [toList]

theorem mentionsLock_combine (first second : MigrationError) :
    (first.combine second).MentionsLock ↔
      first.MentionsLock ∨ second.MentionsLock := by
  rw [mentionsLock_iff_toList, toList_combine, mentionsLock_iff_toList first,
    mentionsLock_iff_toList second]
  simp only [List.mem_append, or_and_right, exists_or]

theorem OfScript.not_mentionsLock {fault : MigrationError} (h : fault.OfScript) :
    ¬ fault.MentionsLock := by
  rintro (_ | _)
  · cases h
  · cases h

end MigrationError

namespace Session

def withLock (s : Session σ) (l : Lock) : Session σ :=
  { s with lock := l }

@[simp] theorem lock_withLock (s : Session σ) (l : Lock) :
    (s.withLock l).lock = l := rfl

@[simp] theorem withLock_lock (s : Session σ) : s.withLock s.lock = s := rfl

theorem call_withLock (db : Database σ) (c : Call) (s : Session σ) (l : Lock) :
    (s.withLock l).call db c = ((s.call db c).1, (s.call db c).2.withLock l) := by
  simp only [call]
  split <;> rfl

end Session

namespace Action

variable {α β : Type}

/-- An operation runs the same whatever the lock is, leaves it as it is, and never
fails because of it. -/
structure IgnoresLock (x : Action σ α) : Prop where
  run_withLock (s : Session σ) (l : Lock) :
    x.run (s.withLock l) = ((x.run s).1, (x.run s).2.withLock l)
  faults (s : Session σ) (fault : MigrationError) :
    (x.run s).1 = .error fault → ¬ fault.MentionsLock

namespace IgnoresLock

theorem lock_run {x : Action σ α} (h : IgnoresLock x) (s : Session σ) :
    (x.run s).2.lock = s.lock := by
  have hrun := h.run_withLock s s.lock
  rw [Session.withLock_lock] at hrun
  rw [hrun, Session.lock_withLock]

theorem pure (a : α) : IgnoresLock (Pure.pure a : Action σ α) where
  run_withLock _ _ := rfl
  faults _ _ := nofun

theorem throw {fault : MigrationError} (h : ¬ fault.MentionsLock) :
    IgnoresLock (throw fault : Action σ α) where
  run_withLock _ _ := rfl
  faults := by
    rintro s _ ⟨⟩
    exact h

/-- What follows has to ignore the lock for answers that can come only. -/
theorem bind {x : Action σ α} {f : α → Action σ β} (hx : IgnoresLock x)
    (hf : ∀ s a, (x.run s).1 = .ok a → IgnoresLock (f a)) :
    IgnoresLock (x >>= f) where
  run_withLock s l := by
    have hlock := hx.run_withLock s l
    cases hrun : x.run s with
    | mk result s' =>
        rw [hrun] at hlock
        cases result with
        | error fault => rw [run_bind_of_error hlock, run_bind_of_error hrun]
        | ok a =>
            rw [run_bind_of_ok hlock, run_bind_of_ok hrun]
            exact (hf s a (by rw [hrun])).run_withLock s' l
  faults s fault hfault := by
    cases hrun : x.run s with
    | mk result s' =>
        cases result with
        | error cause =>
            rw [run_bind_of_error hrun] at hfault
            cases hfault
            exact hx.faults s fault (by rw [hrun])
        | ok a =>
            rw [run_bind_of_ok hrun] at hfault
            exact (hf s a (by rw [hrun])).faults s' fault hfault

theorem call (db : Database σ) (c : Call)
    {fault : DatabaseError → MigrationError}
    (h : ∀ cause, ¬ (fault cause).MentionsLock) :
    IgnoresLock (Action.call db c fault) where
  run_withLock s l := by
    change (((s.withLock l).call db c).1.mapError fault,
      ((s.withLock l).call db c).2) = _
    rw [Session.call_withLock]
    rfl
  faults s f hf := by
    change (s.call db c).1.mapError fault = .error f at hf
    cases hanswer : (s.call db c).1 with
    | error cause =>
        rw [hanswer] at hf
        cases hf
        exact h cause
    | ok answer =>
        rw [hanswer] at hf
        cases hf

theorem log (level : Level) (message : String) :
    IgnoresLock (Action.log level message : Action σ Unit) where
  run_withLock _ _ := rfl
  faults _ _ := nofun

theorem attempt {x : Action σ α} (hx : IgnoresLock x) :
    IgnoresLock (Action.attempt x) where
  run_withLock s l := by
    rw [run_attempt, hx.run_withLock, run_attempt]
  faults _ _ := nofun

end IgnoresLock

end Action

namespace Execution

theorem run_withLock (db : Database σ) (statements : Statements) (done : Summary)
    (s : Session σ) (l : Lock) :
    run db statements done (s.withLock l) =
      { run db statements done s with
        session := (run db statements done s).session.withLock l } := by
  fun_induction run db statements done s with
  | case1 statements done s rest hnext =>
      rw [run_of_end _ hnext]
      rfl
  | case2 statements done s fault rest hnext =>
      rw [run_of_fault _ hnext]
  | case3 statements done s statement rest hnext bytes hdecode =>
      rw [run_of_not_text _ hnext hdecode]
  | case4 statements done s statement rest hnext bytes text hdecode sql hblank
      ih =>
      rw [run_of_blank _ hnext hdecode hblank, ih]
  | case5 statements done s statement rest hnext bytes text hdecode sql hblank
      encoded mode s' cause s'' hcall =>
      have hcall' : (s'.withLock l).call db (.execute mode sql) =
          (.error cause, s''.withLock l) := by
        rw [Session.call_withLock, hcall]
      exact run_of_refused _ hnext hdecode hblank hcall'
  | case6 statements done s statement rest hnext bytes text hdecode sql hblank
      encoded mode s' answer s'' hcall ih =>
      have hcall' : (s'.withLock l).call db (.execute mode sql) =
          (.ok answer, s''.withLock l) := by
        rw [Session.call_withLock, hcall]
      rw [run_of_answered _ hnext hdecode hblank hcall', ih]

end Execution

namespace VersionStore

open SchemaLedger.Action

theorem observe_ignoresLock (key : UInt64) :
    IgnoresLock (observe key : Action σ Unit) where
  run_withLock _ _ := rfl
  faults _ _ := nofun

theorem issue_ignoresLock (now : UInt64) :
    IgnoresLock (issue now : Action σ UInt64) where
  run_withLock _ _ := rfl
  faults _ _ := nofun

theorem column_ignoresLock {α : Type} (query : String)
    (r : Except DatabaseError α) : IgnoresLock (column query r : Action σ α) where
  run_withLock s l := by
    rw [run_column, run_column]
  faults s fault hfault := by
    rw [run_column] at hfault
    cases r with
    | error cause => cases hfault; exact nofun
    | ok a => cases hfault

theorem observeStored_ignoresLock (db : Database σ) (table : String) :
    IgnoresLock (observeStored db table) := by
  refine .bind (.call db _ fun _ => nofun) fun _ rows _ => ?_
  have hcolumn : ∀ row : Row,
      IgnoresLock (column (σ := σ) (maxKeySql table) (row.getUInt64 0) >>= observe) :=
    fun row => .bind (column_ignoresLock _ _) fun _ key _ => observe_ignoresLock key
  match rows with
  | [] => exact .pure ()
  | [] :: _ => exact .pure ()
  | (v :: row) :: _ =>
      cases v with
      | null => exact .pure ()
      | _ => exact hcolumn _

theorem ensureTable_ignoresLock (db : Database σ) (table : String) :
    IgnoresLock (ensureTable db table) := by
  refine .bind (.call db _ fun _ => nofun) fun _ found _ => ?_
  cases found with
  | true =>
      refine .bind (.log _ _) fun _ _ _ => ?_
      exact .bind (observeStored_ignoresLock db table) fun _ _ _ => .pure false
  | false =>
      refine .bind (.call db _ fun _ => nofun) fun _ _ _ => ?_
      exact .bind (.log _ _) fun _ _ _ => .pure true

theorem readCurrent_ignoresLock (db : Database σ) (table : String) :
    IgnoresLock (readCurrent db table) := by
  refine .bind (.call db _ fun _ => nofun) fun _ rows _ => ?_
  cases rows with
  | nil => exact .pure VersionState.none
  | cons row rows =>
      refine .bind (column_ignoresLock _ _) fun _ record _ => ?_
      exact .bind (observe_ignoresLock _) fun _ _ _ => .pure record.state

theorem appendRecord_ignoresLock (db : Database σ) (table : String)
    (now : UInt64) (version : Int64) (dirty : Bool) :
    IgnoresLock (appendRecord db table now version dirty) := by
  refine .bind (issue_ignoresLock now) fun _ sequence _ => ?_
  refine .bind (.call db _ fun _ => nofun) fun _ _ _ => ?_
  exact .bind (.log _ _) fun _ _ _ => .pure _

/-- One object of a pass. -/
def tryDrop (db : Database σ) (object : CatalogObject) :
    Action σ (Option DatabaseError) :=
  ExceptT.mk fun s =>
    match s.call db (.execute .schema object.dropSql) with
    | (.ok _, s) => (.ok none, s.logged .info ("Dropped " ++ object.quotedName))
    | (.error cause, s) =>
      (.ok (some cause), s.logged .debug ("Deferring drop of "
        ++ object.quotedName ++ ": " ++ cause.message))

/-- What passes from the steps of an operation to the whole of it holds of
dropping everything, if it holds of listing the objects and of dropping one. -/
theorem dropAll_induction {Q : {α : Type} → Action σ α → Prop} (db : Database σ)
    (hpure : ∀ {α : Type} (a : α), Q (pure a : Action σ α))
    (hbind : ∀ {α β : Type} {x : Action σ α} {f : α → Action σ β},
      Q x → (∀ a, Q (f a)) → Q (x >>= f))
    (hlist : Q (Action.call db .listObjects fun cause =>
      .dropFailed (cause.sql?.getD "list objects") cause))
    (hdrop : ∀ object, Q (tryDrop db object))
    (hthrow : ∀ query cause, Q (throw (.dropFailed query cause) : Action σ Nat)) :
    Q (dropAll db) := by
  have hpass : ∀ objects, Q (dropEach db objects) := by
    intro objects
    induction objects with
    | nil => exact hpure []
    | cons object rest ih =>
        refine hbind (hdrop object) fun failure? => hbind ih fun failures => ?_
        cases failure? <;> exact hpure _
  refine hbind hlist fun objects => ?_
  -- The list of what is left gets shorter from pass to pass.
  have hpasses : ∀ n pending dropped, pending.length = n →
      Q (dropPasses db pending dropped) := by
    intro n
    induction n using Nat.strongRecOn with
    | ind n ih =>
        intro pending dropped hlength
        rw [dropPasses]
        refine hbind (hpass pending) fun failures => ?_
        cases failures with
        | nil => exact hpure _
        | cons failure failures =>
            simp only
            split
            · next hlt =>
                exact ih _ (hlength ▸ hlt) _ _ (List.length_map _)
            · exact hthrow _ _
  exact hpasses _ objects 0 rfl

theorem tryDrop_ignoresLock (db : Database σ) (object : CatalogObject) :
    IgnoresLock (tryDrop db object) where
  run_withLock s l := by
    simp only [tryDrop, Action.run, ExceptT.run_mk, StateT.run]
    rw [Session.call_withLock]
    cases s.call db (.execute .schema object.dropSql) with
    | mk answer s' => cases answer <;> rfl
  faults s fault hfault := by
    simp only [tryDrop, Action.run, ExceptT.run_mk, StateT.run] at hfault
    split at hfault <;> cases hfault

theorem dropAll_ignoresLock (db : Database σ) : IgnoresLock (dropAll db) :=
  dropAll_induction db .pure (fun hx hf => hx.bind fun _ a _ => hf a)
    (.call db _ fun _ => nofun) (tryDrop_ignoresLock db) fun _ _ => .throw nofun

end VersionStore

namespace Driver

open VersionStore SchemaLedger.Action

variable (d : Driver σ)

theorem run_ignoresLock (script : Source) : IgnoresLock (d.run script) where
  run_withLock s l :=
    congrArg (fun e => (e.result, e.session))
      (Execution.run_withLock d.database (.ofConfig script d.config) {} s l)
  faults _ _ h := (ofScript_of_run d h).not_mentionsLock

theorem setVersion_ignoresLock (now : UInt64) (version : Int64) (dirty : Bool) :
    IgnoresLock (d.setVersion now version dirty) :=
  .bind (appendRecord_ignoresLock _ _ now version dirty) fun _ _ _ => .pure ()

theorem apply_ignoresLock (now : UInt64) (version : Int64) (script : Source) :
    IgnoresLock (d.apply now version script) := by
  refine .bind (.attempt (d.run_ignoresLock script)) fun s result hresult => ?_
  rw [run_attempt] at hresult
  cases result with
  | ok summary =>
      refine .bind (d.setVersion_ignoresLock now version false) fun _ _ _ => ?_
      exact .bind (.log _ _) fun _ _ _ => .pure summary
  | error fault =>
      have hfault : ¬ fault.MentionsLock :=
        (d.run_ignoresLock script).faults s fault (Except.ok.inj hresult)
      have hset := d.setVersion_ignoresLock now version true
      refine .bind (.log _ _) fun _ _ _ => .bind (.attempt hset) ?_
      intro s recorded hrecorded
      rw [run_attempt] at hrecorded
      cases recorded with
      | ok _ => exact .throw hfault
      | error recording =>
          have hrecording := hset.faults s recording (Except.ok.inj hrecorded)
          refine .throw fun h => ?_
          exact ((MigrationError.mentionsLock_combine _ _).1 h).elim hfault hrecording

theorem dropAll_ignoresLock : IgnoresLock d.dropAll :=
  .bind (VersionStore.dropAll_ignoresLock d.database) fun _ _ _ =>
    .bind (.log _ _) fun _ _ _ => .pure _

theorem close_ignoresLock : IgnoresLock d.close :=
  .bind (.call d.database .close fun _ => nofun) fun _ _ _ => .pure ()

theorem run_lock (s : Session σ) :
    d.lock.run s =
      (s.lock.acquire.1.mapError .lock, s.withLock s.lock.acquire.2) := rfl

/-- From a free lock the table is looked for and the lock is given back, whatever
has come of that. -/
theorem run_ensureTable {s : Session σ} (hfree : s.lock.held = false) :
    let looked :=
      (VersionStore.ensureTable d.database d.config.migrationsTable).run s
    d.ensureTable.run s = (looked.1.map fun _ => (), looked.2.withLock {}) := by
  intro looked
  have hlooked := (ensureTable_ignoresLock d.database
    d.config.migrationsTable).run_withLock s ⟨true⟩
  have hacquire : (acquire : Action σ Unit).run s = (.ok (), s.withLock ⟨true⟩) := by
    have hrun := d.run_lock s
    rw [Lock.acquire_of_free hfree] at hrun
    exact hrun
  have hrelease : (attempt (release : Action σ Unit)).run
      (looked.2.withLock ⟨true⟩) = (.ok (.ok ()), looked.2.withLock {}) := rfl
  rw [ensureTable, run_bind_of_ok hacquire, run_bind_of_ok (run_attempt _ _), hlooked,
    run_bind_of_ok hrelease]
  change Action.run _ (looked.2.withLock {}) = _
  cases looked.1 <;> rfl

theorem connect_cases (db : Database σ) (given : Config) (s : Session σ) :
    let ping := db.step .ping s.database
    let r := (connect db (some given)).run s
    (∃ cause, ping.1 = .error cause ∧ r.1 = .error (.connection cause) ∧
      r.2.database = ping.2) ∨
    ∃ fresh : Session σ, fresh.database = ping.2 ∧ fresh.keys = {} ∧
      let looked :=
        (VersionStore.ensureTable db given.normalized.migrationsTable).run fresh
      r.1 = looked.1.map (fun _ => ⟨db, given.normalized⟩) ∧
        r.2.database = looked.2.database ∧ r.2.keys = looked.2.keys ∧
        r.2.lock = {} := by
  intro ping r
  let logged : Session σ := { s with log := s.log ++ given.normalizationLog }
  have hlog : (logAll given.normalizationLog : Action σ Unit).run s =
    (.ok (), logged) := rfl
  have hr : r = _ := run_bind_of_ok hlog _
  cases hping : logged.call db .ping with
  | mk answer s₁ =>
      have hstep := Session.step_of_call hping
      rw [hr, show ping = _ from hstep]
      cases answer with
      | error cause =>
          rw [run_call_bind_of_error hping]
          exact Or.inl ⟨cause, rfl, rfl, rfl⟩
      | ok _ =>
          let fresh : Session σ := { s₁ with keys := {}, lock := {} }
          have hfresh : (modify fun s => { s with keys := {}, lock := {} } :
              Action σ Unit).run s₁ = (.ok (), fresh) := rfl
          have hensure := run_ensureTable ⟨db, given.normalized⟩ (s := fresh) rfl
          rw [run_call_bind_of_ok hping, run_bind_of_ok hfresh]
          refine Or.inr ⟨fresh, rfl, rfl, ?_⟩
          cases hlooked : (VersionStore.ensureTable db
              given.normalized.migrationsTable).run fresh with
          | mk result s₂ =>
              simp only [hlooked] at hensure
              cases result with
              | error fault =>
                  rw [run_bind_of_error hensure]
                  exact ⟨rfl, rfl, rfl, rfl⟩
              | ok created =>
                  rw [run_bind_of_ok hensure, run_bind_of_ok (run_log _ _ _),
                    run_pure]
                  exact ⟨rfl, rfl, rfl, rfl⟩

/-- No driver fails to open because of the lock, and one that opens is free,
whatever the lock was before. -/
theorem connect_lock (db : Database σ) (config? : Option Config) (s : Session σ) :
    let r := (connect db config?).run s
    (∀ fault, r.1 = .error fault → ¬ fault.MentionsLock) ∧
      (r.1.isOk = true → r.2.lock = {}) := by
  intro r
  cases config? with
  | none =>
      refine ⟨?_, nofun⟩
      rintro _ ⟨⟩
      exact nofun
  | some given =>
      rcases connect_cases db given s with
        ⟨cause, -, hresult, -⟩ | ⟨fresh, -, -, hresult, -, -, hlock⟩
      · have hr : r.1 = .error (.connection cause) := hresult
        rw [hr]
        refine ⟨?_, nofun⟩
        rintro _ ⟨⟩
        exact nofun
      · refine ⟨fun fault hfault => ?_, fun _ => hlock⟩
        have hlooked := (ensureTable_ignoresLock db
          given.normalized.migrationsTable).faults fresh fault
        rw [show r.1 = _ from hresult] at hfault
        generalize ((VersionStore.ensureTable db
          given.normalized.migrationsTable).run fresh).1 = result at hfault hlooked
        cases result with
        | error cause => cases hfault; exact hlooked rfl
        | ok created => cases hfault

/-- What can be asked of an open driver. -/
inductive Operation where
  | lock
  | unlock
  | run (script : Source)
  | apply (now : UInt64) (target : Int64) (script : Source)
  | version
  | setVersion (now : UInt64) (target : Int64) (dirty : Bool)
  | dropAll
  | close

namespace Operation

abbrev Answer : Operation → Type
  | run _ => Summary
  | apply .. => Summary
  | version => VersionState
  | dropAll => Nat
  | _ => Unit

def action (d : Driver σ) : (o : Operation) → Action σ o.Answer
  | lock => d.lock
  | unlock => d.unlock
  | run script => d.run script
  | apply now target script => d.apply now target script
  | version => d.version
  | setVersion now target dirty => d.setVersion now target dirty
  | dropAll => d.dropAll
  | close => d.close

def request? : Operation → Option Lock.Request
  | lock => some .acquire
  | unlock => some .release
  | _ => none

theorem ignoresLock (o : Operation) (h : o.request? = none) :
    IgnoresLock (o.action d) := by
  cases o with
  | lock => cases h
  | unlock => cases h
  | run script => exact d.run_ignoresLock script
  | apply now target script => exact d.apply_ignoresLock now target script
  | version => exact readCurrent_ignoresLock _ _
  | setVersion now target dirty => exact d.setVersion_ignoresLock now target dirty
  | dropAll => exact d.dropAll_ignoresLock
  | close => exact d.close_ignoresLock

theorem lock_run (o : Operation) (s : Session σ) :
    ((o.action d).run s).2.lock =
      match o.request? with
      | some request => (s.lock.perform request).2
      | none => s.lock := by
  cases hrequest : o.request? with
  | none => exact (o.ignoresLock d hrequest).lock_run s
  | some request =>
      cases o with
      | lock => cases hrequest; rfl
      | unlock => cases hrequest; rfl
      | _ => cases hrequest

end Operation

def after (operations : List Operation) (s : Session σ) : Session σ :=
  operations.foldl (fun s o => ((o.action d).run s).2) s

end Driver

def Lock.after (l : Lock) (requests : List Request) : Lock :=
  requests.foldl (fun l request => (l.perform request).2) l

theorem Driver.lock_after (d : Driver σ) (operations : List Operation)
    (s : Session σ) :
    (d.after operations s).lock =
      s.lock.after (operations.filterMap (·.request?)) := by
  induction operations generalizing s with
  | nil => rfl
  | cons o operations ih =>
      have hlock := o.lock_run d s
      have hafter : (d.after (o :: operations) s).lock = _ :=
        ih ((o.action d).run s).2
      rw [hafter, hlock]
      cases hrequest : o.request? with
      | none => rw [List.filterMap_cons_none hrequest]
      | some request => rw [List.filterMap_cons_some hrequest]; rfl

/-- Parties at a lock take it and give it back in turn; a request fails if and only
if the lock is as it asks for already, and leaves it so; and if only those who are
inside give it back, at most one is. A driver opens with a free lock and never fails
to open because of it. Then only requests for the lock move it, and the other
operations come to the same whatever it is. -/
theorem Lock.excludes {ι : Type} [DecidableEq ι] :
    (∀ (events : List (Event ι)) (l : Lock), Run events l →
      (l.held = true ↔ (successes events).length % 2 = 1) ∧
      (∀ (n : Nat) (request : Request),
        (successes events).reverse[n]? = some request →
          (request = .acquire ↔ n % 2 = 0)) ∧
      (l.acquire.1 = .error .alreadyHeld ↔ l.held = true) ∧
      (l.acquire.1 = .ok () ↔ l.held = false) ∧ l.acquire.2.held = true ∧
      (l.release.1 = .error .notHeld ↔ l.held = false) ∧
      (l.release.1 = .ok () ↔ l.held = true) ∧ l.release.2.held = false ∧
      (Disciplined events → ∀ i j, Inside i events → Inside j events → i = j)) ∧
    (∀ (db : Database σ) (config? : Option Config) (s : Session σ),
      (∀ fault, ((Driver.connect db config?).run s).1 = .error fault →
        ¬ fault.MentionsLock) ∧
      (((Driver.connect db config?).run s).1.isOk = true →
        ((Driver.connect db config?).run s).2.lock.held = false)) ∧
    ∀ (d : Driver σ) (operations : List Driver.Operation) (s : Session σ),
      (d.after operations s).lock =
        s.lock.after (operations.filterMap (·.request?)) ∧
      ∀ o : Driver.Operation, o.request? = none →
        ((o.action d).run (d.after operations s)).2.lock =
          (d.after operations s).lock ∧
        (∀ l, ((o.action d).run ((d.after operations s).withLock l)).1 =
          ((o.action d).run (d.after operations s)).1) ∧
        ∀ fault, ((o.action d).run (d.after operations s)).1 = .error fault →
          ¬ fault.MentionsLock := by
  refine ⟨fun events l hrun => ?_, fun db config? s => ?_,
    fun d operations s => ⟨d.lock_after operations s, fun o ho => ?_⟩⟩
  · obtain ⟨hheld, halternate⟩ := hrun.alternate
    obtain ⟨hheldAlready, hacquired, hheldAfter⟩ := l.acquire_spec
    obtain ⟨hfreeAlready, hreleased, hfreeAfter⟩ := l.release_spec
    exact ⟨hheld, halternate, hheldAlready, hacquired, hheldAfter, hfreeAlready,
      hreleased, hfreeAfter, fun h => (hrun.inside h).2⟩
  · obtain ⟨hfaults, hfree⟩ := Driver.connect_lock db config? s
    exact ⟨hfaults, fun hok => congrArg held (hfree hok)⟩
  · have hignores := o.ignoresLock d ho
    refine ⟨hignores.lock_run _, fun l => ?_, hignores.faults _⟩
    rw [hignores.run_withLock]

/-- Two parties, one of which comes too late at first, and the driver of a database
that has no migrations table yet. -/
theorem Lock.excludes_of_latecomer :
    let events : List (Event Bool) :=
      [⟨true, .acquire, true⟩, ⟨false, .release, true⟩, ⟨true, .acquire, false⟩,
        ⟨false, .acquire, true⟩]
    let d : Driver (Option (List Row)) := ⟨VersionStore.soleTable "versions", {}⟩
    Run events ⟨true⟩ ∧ Disciplined events ∧ Inside true events ∧
      ¬ Inside false events ∧
      (d.after [.lock, .version, .lock] { database := none }).lock = ⟨true⟩ := by
  intro events d
  have hrun : Run events ⟨true⟩ :=
    .call true .acquire (.call false .release
      (.call true .acquire (.call false .acquire .start)))
  have hdisciplined : Disciplined events := by simp [events, Disciplined, Inside]
  have hinside : Inside true events := by simp [events, Inside]
  obtain ⟨hparties, -, hdriver⟩ := excludes (σ := Option (List Row)) (ι := Bool)
  obtain ⟨-, -, -, -, -, -, -, -, hone⟩ := hparties events _ hrun
  refine ⟨hrun, hdisciplined, hinside, fun hother => ?_,
    (hdriver d [.lock, .version, .lock] { database := none }).1⟩
  cases hone hdisciplined true false hinside hother

end SchemaLedger
