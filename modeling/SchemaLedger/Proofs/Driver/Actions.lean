import SchemaLedger.Driver.Session
/-!
# Running actions

How the operations that actions are built from run: what they answer, and what
they do to the state of the database and to the keys. Logging touches neither.
-/

namespace SchemaLedger

variable {σ : Type}

namespace Session

@[simp] theorem database_logged (s : Session σ) (level : Level)
    (message : String) : (s.logged level message).database = s.database := rfl

@[simp] theorem keys_logged (s : Session σ) (level : Level) (message : String) :
    (s.logged level message).keys = s.keys := rfl

@[simp] theorem call_fst (db : Database σ) (c : Call) (s : Session σ) :
    (s.call db c).1 = (db.step c s.database).1 := by
  simp only [call]; split <;> rfl

@[simp] theorem database_call (db : Database σ) (c : Call) (s : Session σ) :
    (s.call db c).2.database = (db.step c s.database).2 := by
  simp only [call]; split <;> rfl

/-- A call in a session is a step of the database. -/
theorem step_of_call {db : Database σ} {c : Call} {s s' : Session σ}
    {answer : Except DatabaseError c.Answer}
    (h : s.call db c = (answer, s')) :
    db.step c s.database = (answer, s'.database) := by
  refine Prod.ext ?_ ?_
  · rw [← call_fst, h]
  · rw [← database_call, h]

theorem call_of_step {db : Database σ} {c : Call} {s : Session σ} {d : σ}
    {answer : Except DatabaseError c.Answer}
    (h : db.step c s.database = (answer, d)) :
    ∃ s', s.call db c = (answer, s') ∧ s'.database = d := by
  refine ⟨(s.call db c).2, Prod.ext ?_ rfl, ?_⟩
  · rw [call_fst, h]
  · rw [database_call, h]

theorem keys_of_call {db : Database σ} {c : Call} {s s' : Session σ}
    {answer : Except DatabaseError c.Answer}
    (h : s.call db c = (answer, s')) : s'.keys = s.keys := by
  rw [← keys_call db c s, h]

end Session

namespace Action

variable {α β : Type}

theorem run_pure (a : α) (s : Session σ) :
    (pure a : Action σ α).run s = (.ok a, s) := rfl

theorem run_bind_of_ok {x : Action σ α} {s s' : Session σ} {a : α}
    (h : x.run s = (.ok a, s')) (f : α → Action σ β) :
    (x >>= f).run s = (f a).run s' := by
  have hx : (StateT.run (ExceptT.run x) s : Id _) = (.ok a, s') := h
  simp only [run, ExceptT.run_bind, StateT.run_bind, hx]
  rfl

theorem run_bind_of_error {x : Action σ α} {s s' : Session σ}
    {fault : MigrationError} (h : x.run s = (.error fault, s'))
    (f : α → Action σ β) : (x >>= f).run s = (.error fault, s') := by
  have hx : (StateT.run (ExceptT.run x) s : Id _) = (.error fault, s') := h
  simp only [run, ExceptT.run_bind, StateT.run_bind, hx]
  rfl

/-- What each step does to the database, seen as a relation that can be chained, the
whole does. -/
theorem run_bind_induction {R : σ → σ → Prop}
    (htrans : ∀ {d d' d''}, R d d' → R d' d'' → R d d'') {x : Action σ α}
    {f : α → Action σ β} (hx : ∀ s, R s.database (x.run s).2.database)
    (hf : ∀ a s, R s.database ((f a).run s).2.database) (s : Session σ) :
    R s.database ((x >>= f).run s).2.database := by
  have hfirst := hx s
  cases hrun : x.run s with
  | mk result s₁ =>
      rw [hrun] at hfirst
      cases result with
      | error fault =>
          rw [run_bind_of_error hrun]
          exact hfirst
      | ok a =>
          rw [run_bind_of_ok hrun]
          exact htrans hfirst (hf a s₁)

theorem run_bind_pure (x : Action σ α) (g : α → β) (s : Session σ) :
    (x >>= fun a => pure (g a)).run s = ((x.run s).1.map g, (x.run s).2) := by
  cases hx : x.run s with
  | mk result s' =>
      cases result with
      | error fault => exact run_bind_of_error hx _
      | ok a => exact run_bind_of_ok hx _

theorem run_attempt (x : Action σ α) (s : Session σ) :
    (attempt x).run s = (.ok (x.run s).1, (x.run s).2) := rfl

theorem run_log (level : Level) (message : String) (s : Session σ) :
    (log level message).run s = (.ok (), s.logged level message) := rfl

theorem call_of_run_call {db : Database σ} {c : Call} {s s' : Session σ}
    {fault : DatabaseError → MigrationError} {answer : c.Answer}
    (h : (call db c fault).run s = (.ok answer, s')) :
    s.call db c = (.ok answer, s') := by
  have hrun : (call db c fault).run s =
      ((s.call db c).1.mapError fault, (s.call db c).2) := rfl
  rw [hrun] at h
  cases hcall : s.call db c with
  | mk result s₁ =>
      rw [hcall] at h
      cases result with
      | error cause => cases h
      | ok answer => cases h; rfl

theorem run_call_bind_of_ok {db : Database σ} {c : Call} {s s' : Session σ}
    {answer : c.Answer} (h : s.call db c = (.ok answer, s'))
    (fault : DatabaseError → MigrationError) (f : c.Answer → Action σ β) :
    (call db c fault >>= f).run s = (f answer).run s' := by
  refine run_bind_of_ok ?_ f
  change ((s.call db c).1.mapError fault, (s.call db c).2) = _
  rw [h]
  rfl

theorem run_call_bind_of_error {db : Database σ} {c : Call} {s s' : Session σ}
    {cause : DatabaseError} (h : s.call db c = (.error cause, s'))
    (fault : DatabaseError → MigrationError) (f : c.Answer → Action σ β) :
    (call db c fault >>= f).run s = (.error (fault cause), s') := by
  refine run_bind_of_error ?_ f
  change ((s.call db c).1.mapError fault, (s.call db c).2) = _
  rw [h]
  rfl

end Action

end SchemaLedger
