import SchemaLedger.Main
import SchemaLedger.Proofs.Driver.Opening
/-!
# Steps of commands

How the steps that commands are made of run. A command opens a driver through the
registry that it finds; `Opens` is what it relies on there. Since an opened driver
is free, taking the lock for a step and giving it back makes no difference,
`Step.run_locked`.
-/

namespace SchemaLedger

variable {σ τ : Type}

namespace Registry

theorem openWith_cases (registry : Registry σ) (text : String) (base : Config)
    (s : Session σ) :
    let r := (registry.openWith text base).run s
    (∃ fault, r.1 = .error fault ∧ r.2.database = s.database) ∨
    ∃ c factory s', (ConnectionString.parse base text).1 = .ok c ∧
      registry.factories.lookup c.scheme = some factory ∧
      s'.database = s.database ∧ r = (factory c).run s' := by
  intro r
  have hr : r = (registry.openWith text base).run s := rfl
  rw [openWith] at hr
  cases hparse : ConnectionString.parse base text with
  | mk parsed lines =>
      rw [hparse] at hr
      let logged : Session σ := { s with log := s.log ++ lines }
      have hlog : (Action.logAll lines : Action σ Unit).run s = (.ok (), logged) :=
        rfl
      simp only [Action.run_bind_of_ok hlog] at hr
      rw [hr]
      cases parsed with
      | error fault => exact Or.inl ⟨_, rfl, rfl⟩
      | ok c =>
          simp only [connect]
          cases hlookup : registry.factories.lookup c.scheme with
          | none => exact Or.inl ⟨_, rfl, rfl⟩
          | some factory =>
              refine Or.inr ⟨c, factory, _, rfl, hlookup, ?_,
                Action.run_bind_of_ok (Action.run_log _ _ logged) _⟩
              rfl

end Registry

namespace CommandLine

/-- A factory finds a database as it was left, as far as `view` shows it, and opens
a driver on it, or fails and has done nothing to it. -/
def Opens (db : Database σ) (view : σ → τ) (c : ConnectionString)
    (factory : Factory σ) : Prop :=
  ∀ s, ∃ s', view s'.database = view s.database ∧
    ((factory c).run s = (Driver.connect db (some c.config)).run s' ∨
      ∃ fault, (factory c).run s = (.error fault, s'))

theorem Opens.comp {ρ : Type} {db : Database σ} {view : σ → τ}
    {c : ConnectionString} {factory : Factory σ} (h : Opens db view c factory)
    (g : τ → ρ) : Opens db (fun e => g (view e)) c factory := by
  intro s
  obtain ⟨s', hview, hrun⟩ := h s
  exact ⟨s', congrArg g hview, hrun⟩

/-- The factory of the engine opens in this sense, if nothing that is viewed gets
lost when the database is opened again. -/
theorem opens_factory {db : Database σ} {get : σ → Engine.State}
    {put : Engine.State → σ → σ} {view : σ → τ} {c : ConnectionString}
    (h : ∀ e opened, (get e).connect c.location = .ok opened →
      view (put opened e) = view e) :
    Opens db view c (Engine.factory db get put) := by
  intro s
  let logged : Session σ := s.logged .debug
    ("Opening " ++ Engine.name ++ " database '" ++ c.location ++ "'")
  have hstart : ∀ f : Session σ → Action σ (Driver σ),
      (Action.log .debug ("Opening " ++ Engine.name ++ " database '" ++ c.location
        ++ "'") >>= fun _ => getThe (Session σ) >>= f).run s =
        (f logged).run logged := fun _ => rfl
  have hrun : (Engine.factory db get put c).run s = _ := hstart _
  rw [hrun]
  cases hconnect : (get logged.database).connect c.location with
  | error reason => exact ⟨logged, rfl, Or.inr ⟨_, rfl⟩⟩
  | ok opened =>
      exact ⟨{ logged with database := put opened logged.database },
        h _ opened hconnect, Or.inl rfl⟩

namespace Step

variable {α β : Type}

theorem run_bind_of_ok {x : Step σ α} {s s' : Session σ} {a : α}
    (h : x.run s = (.ok a, s')) (f : α → Step σ β) :
    (x >>= f).run s = (f a).run s' := by
  have hx : (StateT.run (ExceptT.run x) s : Id _) = (.ok a, s') := h
  change StateT.run (ExceptT.run (x >>= f)) s = _
  simp only [ExceptT.run_bind, StateT.run_bind, hx]
  rfl

theorem run_bind_of_error {x : Step σ α} {s s' : Session σ} {fault : CommandError}
    (h : x.run s = (.error fault, s')) (f : α → Step σ β) :
    (x >>= f).run s = (.error fault, s') := by
  have hx : (StateT.run (ExceptT.run x) s : Id _) = (.error fault, s') := h
  change StateT.run (ExceptT.run (x >>= f)) s = _
  simp only [ExceptT.run_bind, StateT.run_bind, hx]
  rfl

theorem run_bind_congr {x y : Step σ α} {s : Session σ} (h : x.run s = y.run s)
    (f : α → Step σ β) : (x >>= f).run s = (y >>= f).run s := by
  cases hy : y.run s with
  | mk result s' =>
      rw [hy] at h
      cases result with
      | error fault => rw [run_bind_of_error h, run_bind_of_error hy]
      | ok a => rw [run_bind_of_ok h, run_bind_of_ok hy]

theorem run_during (task : Task) (a : Action σ α) (s : Session σ) :
    (during task a).run s =
      ((a.run s).1.mapError (.failed task), (a.run s).2) := rfl

theorem run_during_of_ok {task : Task} {a : Action σ α} {s s' : Session σ}
    {value : α} (h : a.run s = (.ok value, s')) :
    (during task a).run s = (.ok value, s') := by
  rw [run_during, h]
  rfl

theorem run_during_of_error {task : Task} {a : Action σ α} {s s' : Session σ}
    {fault : MigrationError} (h : a.run s = (.error fault, s')) :
    (during task a).run s = (.error (.failed task fault), s') := by
  rw [run_during, h]
  rfl

/-- Under a lock that is free, a step that ignores it goes as it would without. -/
theorem run_locked (d : Driver σ) (task : Task) {a : Action σ α}
    (ha : a.IgnoresLock) {s : Session σ} (hfree : s.lock = {}) :
    (locked d task a).run s = (during task a).run s := by
  have hlock : (ofAction .lock d.lock).run s = (.ok (), s.withLock ⟨true⟩) := by
    change ((d.lock.run s).1.mapError CommandError.lock, (d.lock.run s).2) = _
    rw [d.run_lock, hfree]
    rfl
  have hattempt : (ofAction .lock (Action.attempt a)).run (s.withLock ⟨true⟩) =
      (.ok (a.run s).1, (a.run s).2.withLock ⟨true⟩) := by
    change (((Action.attempt a).run (s.withLock ⟨true⟩)).1.mapError CommandError.lock,
      ((Action.attempt a).run (s.withLock ⟨true⟩)).2) = _
    rw [Action.run_attempt, ha.run_withLock]
    rfl
  have hunlock : (ofAction .lock d.unlock).run ((a.run s).2.withLock ⟨true⟩) =
      (.ok (), (a.run s).2.withLock {}) := rfl
  have hback : (a.run s).2.withLock {} = (a.run s).2 := by
    rw [← hfree, ← ha.lock_run s, Session.withLock_lock]
  rw [locked, run_bind_of_ok hlock, run_bind_of_ok hattempt, run_bind_of_ok hunlock,
    hback, run_during]
  cases (a.run s).1 <;> rfl

end Step

/-- The connection string that a command works with, if it can be read. -/
def Invocation.connection? (i : Invocation) (around : Surroundings σ) :
    Option ConnectionString := do
  let base ← (baseConfig around i.config).toOption
  (ConnectionString.parse base (← i.database)).1.toOption

/-- Faults that a command meets before it gets to its task. -/
inductive CommandError.Early : CommandError → Prop
  | databaseMissing : Early .databaseMissing
  | configFailed (path : String) (fault : InputError) :
      Early (.configFailed path fault)
  | scriptMissing (path reason : String) : Early (.scriptMissing path reason)
  | opening (fault : MigrationError) : Early (.failed .opening fault)
  | reading (fault : MigrationError) : Early (.failed .reading fault)

section Opening

variable {db : Database σ} {view : σ → τ} {around : Surroundings σ}
  {i : Invocation}

/-- A registry fails before a database is opened, or connects to one that is as it
was left. -/
theorem openWith_opens {registry : Registry σ} {text : String} {base : Config}
    (hopens : ∀ c factory, (ConnectionString.parse base text).1 = .ok c →
      registry.factories.lookup c.scheme = some factory → Opens db view c factory)
    (s : Session σ) :
    let r := (registry.openWith text base).run s
    ∃ s₀ : Session σ, view s₀.database = view s.database ∧
      ((∃ fault, r.1 = .error fault ∧ r.2.database = s₀.database) ∨
      ∃ c, (ConnectionString.parse base text).1 = .ok c ∧
        r = (Driver.connect db (some c.config)).run s₀) := by
  intro r
  rcases registry.openWith_cases text base s with
    hfault | ⟨c, factory, s₁, hparse, hlookup, hs₁, hrun⟩
  · exact ⟨s, rfl, Or.inl hfault⟩
  · obtain ⟨s₀, hview, hfactory⟩ := hopens c factory hparse hlookup s₁
    refine ⟨s₀, hs₁ ▸ hview, ?_⟩
    rcases hfactory with hconnect | ⟨fault, hfault⟩
    · exact Or.inr ⟨c, hparse, hrun.trans hconnect⟩
    · rw [show r = _ from hrun, hfault]
      exact Or.inl ⟨fault, rfl, rfl⟩

theorem run_openScript_of_error {file reason : String}
    (h : around.script file = .error reason) (s : Session σ) :
    (openScript around file).run s = (.error (.scriptMissing file reason), s) := by
  rw [openScript, h]
  rfl

theorem run_openScript_of_ok {file : String} {script : Source}
    (h : around.script file = .ok script) (s : Session σ) :
    (openScript around file).run s = (.ok script, s) := by
  rw [openScript, h]
  rfl

theorem early_of_baseConfig {path? : Option String} {fault : CommandError}
    (h : baseConfig around path? = .error fault) : fault.Early := by
  cases path? with
  | none => cases h
  | some path =>
      rw [baseConfig] at h
      cases hread : Config.ofFile path (around.configFile path) with
      | error cause =>
          rw [hread] at h
          cases h
          exact .configFailed path cause
      | ok c =>
          rw [hread] at h
          cases h

theorem early_of_opening {α : Type} {r : Except MigrationError α}
    {fault : CommandError} (h : r.mapError (.failed .opening) = .error fault) :
    fault.Early := by
  cases r with
  | error cause => cases h; exact .opening cause
  | ok a => cases h

theorem openDriver_cases
    (hopens : ∀ c factory, i.connection? around = some c →
      around.registry.factories.lookup c.scheme = some factory →
      Opens db view c factory) (s : Session σ) :
    let r := (openDriver around i).run s
    ∃ s₀ : Session σ, view s₀.database = view s.database ∧
      ((∃ fault, r.1 = .error fault ∧ fault.Early ∧
        r.2.database = s₀.database) ∨
      ∃ c, i.connection? around = some c ∧
        let o := (Driver.connect db (some c.config)).run s₀
        r.1 = o.1.mapError (.failed .opening) ∧
          r.2.database = o.2.database ∧ r.2.keys = o.2.keys ∧
          r.2.lock = o.2.lock) := by
  intro r
  have hr : r = (openDriver around i).run s := rfl
  rw [openDriver] at hr
  cases hdatabase : i.database with
  | none =>
      rw [hdatabase] at hr
      exact ⟨s, rfl, Or.inl ⟨_, by rw [hr]; rfl, .databaseMissing, by rw [hr]; rfl⟩⟩
  | some text =>
      rw [hdatabase] at hr
      cases hbase : baseConfig around i.config with
      | error fault =>
          rw [hbase] at hr
          exact ⟨s, rfl, Or.inl ⟨fault, by rw [hr]; rfl, early_of_baseConfig hbase,
            by rw [hr]; rfl⟩⟩
      | ok base =>
          rw [hbase] at hr
          have hbound : (MonadExcept.ofExcept (.ok base) : Step σ Config).run s =
            (.ok base, s) := rfl
          simp only [Step.run_bind_of_ok hbound] at hr
          have hconnection : ∀ c, (ConnectionString.parse base text).1 = .ok c →
              i.connection? around = some c := by
            intro c hparse
            rw [Invocation.connection?, hbase, hdatabase]
            change (ConnectionString.parse base text).1.toOption = _
            rw [hparse]
            rfl
          obtain ⟨s₀, hview, hopened⟩ := openWith_opens
            (fun c factory hparse => hopens c factory (hconnection c hparse)) s
          refine ⟨s₀, hview, ?_⟩
          cases hrun : (around.registry.openWith text base).run s with
          | mk result s' =>
              rw [hrun] at hopened
              cases result with
              | error fault =>
                  have hfailed : (Step.during .opening _).run s = _ :=
                    Step.run_during_of_error hrun
                  rw [hr, Step.run_bind_of_error hfailed]
                  rcases hopened with ⟨_, -, hkept⟩ | ⟨c, hparse, ho⟩
                  · exact Or.inl ⟨_, rfl, .opening fault, hkept⟩
                  · refine Or.inr ⟨c, hconnection c hparse, ?_⟩
                    rw [← ho]
                    exact ⟨rfl, rfl, rfl, rfl⟩
              | ok d =>
                  have hdone : (Step.during .opening _).run s = _ :=
                    Step.run_during_of_ok hrun
                  rw [hr, Step.run_bind_of_ok hdone]
                  rcases hopened with ⟨_, hfault, -⟩ | ⟨c, hparse, ho⟩
                  · cases hfault
                  · refine Or.inr ⟨c, hconnection c hparse, ?_⟩
                    rw [← ho]
                    exact ⟨rfl, rfl, rfl, rfl⟩

end Opening

end CommandLine

end SchemaLedger
