import SchemaLedger.Proofs.CommandLine.Steps
/-!
# What commands do to the migrations table

A command looks for the table first, and may create it. What it does to the table
after that is one of four things, whatever fails on the way: it leaves the rows as
they are; it applies a script and adds the record, which it does only where the table
does not stand at a dirty version; it adds a record for a forced version; or it is a
confirmed drop and the table goes. A record is added above all keys that are stored,
because each command has looked at them before.
-/

namespace SchemaLedger

variable {σ : Type}

namespace VersionStore

/-- A database that keeps a migrations table. The calls that are not about the table
leave it alone, except that it may go with an object that is dropped. Any call may
fail. -/
structure Dependable (db : Database σ) (table : String)
    (rows? : σ → Option (List Row)) : Prop extends Faithful db table rows? where
  ping (d : σ) : rows? (db.step .ping d).2 = rows? d
  close (d : σ) : rows? (db.step .close d).2 = rows? d
  list (d : σ) : rows? (db.step .listObjects d).2 = rows? d
  drop (o : CatalogObject) (d : σ) :
    rows? (db.step (.execute .schema o.dropSql) d).2 = rows? d ∨
      rows? (db.step (.execute .schema o.dropSql) d).2 = none

/-- A record has been added behind the rows, above all their keys. -/
structure Appended (rows? : σ → Option (List Row)) (d d' : σ)
    (r : VersionRecord) : Prop where
  rows : rows? d' = some (stored rows? d ++ [parameters r])
  above : ∀ row ∈ stored rows? d, key row < r.sequence

variable {db : Database σ} {table : String} {rows? : σ → Option (List Row)}

theorem Ready.insert (h : Faithful db table rows?) {d e : σ} {s : Session σ}
    (hready : Ready rows? d s) (hwf : WellFormed rows? d)
    (hrows : rows? e = some (stored rows? d)) (now : UInt64) (version : Int64)
    (dirty : Bool) :
    let r : VersionRecord := ⟨s.keys.issue now, version, dirty⟩
    let e' := (db.step (.transact (insertSql table) (parameters r)) e).2
    rows? e' = some (stored rows? d) ∨ Appended rows? d e' r := by
  intro r e'
  have hinsert := h.insert r e
  cases hstep : db.step (.transact (insertSql table) (parameters r)) e with
  | mk answer e₁ =>
      have he : e' = e₁ := congrArg Prod.snd hstep
      rw [hstep] at hinsert
      rw [he]
      cases answer with
      | error cause => exact Or.inl (hinsert.trans hrows)
      | ok n =>
          obtain ⟨rows, hrows', hnew, hadded⟩ := hinsert
          obtain rfl : stored rows? d = rows := Option.some.inj (hrows ▸ hrows')
          refine Or.inr ⟨hadded, fun row hrow => ?_⟩
          have hle := hready.covers hwf _ hready.rows row hrow
          exact UInt64.lt_of_le_of_ne
            (UInt64.le_trans hle (SequenceKeys.le_issue s.keys now)) (hnew row hrow)

end VersionStore

/-- Whatever comes of an operation, the table has its rows or is gone. -/
def Action.KeepsOrRemoves {α : Type} (rows? : σ → Option (List Row))
    (x : Action σ α) : Prop :=
  ∀ s, rows? (x.run s).2.database = rows? s.database ∨
    rows? (x.run s).2.database = none

theorem Action.KeepsOrRemoves.bind {α β : Type} {rows? : σ → Option (List Row)}
    {x : Action σ α} {f : α → Action σ β} (hx : KeepsOrRemoves rows? x)
    (hf : ∀ a, KeepsOrRemoves rows? (f a)) : KeepsOrRemoves rows? (x >>= f) := by
  refine run_bind_induction
    (R := fun d d' => rows? d' = rows? d ∨ rows? d' = none) ?_ hx hf
  rintro d d' d'' hfirst (hkept | hgone)
  · rw [hkept]
    exact hfirst
  · exact Or.inr hgone

namespace VersionStore

variable {db : Database σ} {table : String} {rows? : σ → Option (List Row)}

theorem database_tryDrop (db : Database σ) (object : CatalogObject)
    (s : Session σ) :
    ((tryDrop db object).run s).2.database =
      (db.step (.execute .schema object.dropSql) s.database).2 := by
  rw [← Session.database_call]
  simp only [tryDrop, Action.run, ExceptT.run_mk, StateT.run]
  cases s.call db (.execute .schema object.dropSql) with
  | mk answer s' => cases answer <;> rfl

theorem dropAll_keepsOrRemoves (h : Dependable db table rows?) :
    Action.KeepsOrRemoves rows? (dropAll db) := by
  refine dropAll_induction (Q := fun x => x.KeepsOrRemoves rows?) db
    (fun _ _ => Or.inl rfl) .bind (fun s => Or.inl ?_) (fun object s => ?_)
    fun _ _ _ => Or.inl rfl
  · change rows? (s.call db .listObjects).2.database = _
    rw [Session.database_call, h.list]
  · rw [database_tryDrop]
    exact h.drop object s.database

end VersionStore

theorem Driver.dropAll_keepsOrRemoves {d : Driver σ} {table : String}
    {rows? : σ → Option (List Row)}
    (h : VersionStore.Dependable d.database table rows?) :
    Action.KeepsOrRemoves rows? d.dropAll :=
  .bind (VersionStore.dropAll_keepsOrRemoves h) fun _ _ => Or.inl rfl

namespace CommandLine

open VersionStore

/-- A command works on a database with this migrations table, and its script, if it
has one, leaves an existing table as it is. -/
structure WorksOn (db : Database σ) (table : String)
    (rows? : σ → Option (List Row)) (around : Surroundings σ) (i : Invocation) :
    Prop where
  table c : i.connection? around = some c →
    c.config.normalized.migrationsTable = table
  opens c factory : i.connection? around = some c →
    around.registry.factories.lookup c.scheme = some factory →
      Opens db rows? c factory
  spares c file script : i.connection? around = some c → i.script? = some file →
    around.script file = .ok script → ∀ (s : Session σ) (rows : List Row),
      rows? s.database = some rows →
        rows? ((Driver.run ⟨db, c.config.normalized⟩ script).run s).2.database =
          some rows

/-- What a command does to the table, from one state of the database to another. -/
inductive Effect (rows? : σ → Option (List Row)) (i : Invocation) (d d' : σ) :
    Prop
  | kept : Kept rows? d d' → Effect rows? i d d'
  | applied {version : Int64} {file : String} {state : VersionState}
      {r : VersionRecord} :
      i.command = .apply version file → Stands (stored rows? d) state →
      state.dirty = false → r.version = version → Appended rows? d d' r →
      Effect rows? i d d'
  | forced {version : Int64} {r : VersionRecord} :
      i.command = .force version → r.state = ⟨version, false⟩ →
      Appended rows? d d' r → Effect rows? i d d'
  | dropped : i.command = .drop true → rows? d' = none → Effect rows? i d d'

variable {db : Database σ} {table : String} {rows? : σ → Option (List Row)}
  {around : Surroundings σ} {i : Invocation} {now : UInt64} {d : σ}

theorem Effect.of_rows_eq {e e' : σ} (h : Effect rows? i d e)
    (hrows : rows? e' = rows? e) : Effect rows? i d e' := by
  cases h with
  | kept hkept => exact .kept (hkept.trans (Or.inl hrows))
  | applied hcommand hstands hclean hversion hadded =>
      exact .applied hcommand hstands hclean hversion
        ⟨hrows.trans hadded.rows, hadded.above⟩
  | forced hcommand hstate hadded =>
      exact .forced hcommand hstate ⟨hrows.trans hadded.rows, hadded.above⟩
  | dropped hcommand hgone => exact .dropped hcommand (hrows.trans hgone)

/-- What a command has done by the time it has a line to print, or has failed. -/
structure Performed (db : Database σ) (rows? : σ → Option (List Row))
    (i : Invocation) (d : σ)
    (r : Except CommandError (Driver σ × String) × Session σ) : Prop where
  effect : Effect rows? i d r.2.database
  driver o : r.1 = .ok o → o.1.database = db

theorem performed_throw {fault : CommandError} {s : Session σ}
    (h : Effect rows? i d s.database) :
    Performed db rows? i d (.error fault, s) := ⟨h, nofun⟩

theorem performed_pure (config : Config) (line : String) {s : Session σ}
    (h : Effect rows? i d s.database) :
    Performed db rows? i d (.ok (⟨db, config⟩, line), s) := by
  refine ⟨h, ?_⟩
  rintro _ ⟨⟩
  rfl

theorem kept_of_openDriver (hdb : Dependable db table rows?)
    (hworks : WorksOn db table rows? around i) {s s' : Session σ}
    {fault : CommandError}
    (hrun : (openDriver around i).run s = (.error fault, s')) :
    Kept rows? s.database s'.database := by
  obtain ⟨s₀, hview, hopened⟩ := openDriver_cases hworks.opens s
  rw [hrun] at hopened
  rcases hopened with ⟨_, -, -, hdatabase⟩ | ⟨c, hc, -, hdatabase, -⟩
  · exact Or.inl (hdatabase ▸ hview)
  · have hkept := Driver.connect_keeps
      (hworks.table c hc ▸ hdb.toFaithful) hdb.ping s₀
    rw [Kept, hview, ← hdatabase] at hkept
    exact hkept

theorem ready_of_openDriver (hdb : Dependable db table rows?)
    (hworks : WorksOn db table rows? around i) {s s' : Session σ}
    {opened : Driver σ} (hrun : (openDriver around i).run s = (.ok opened, s')) :
    ∃ c, i.connection? around = some c ∧ opened = ⟨db, c.config.normalized⟩ ∧
      Ready rows? s.database s' := by
  obtain ⟨s₀, hview, hopened⟩ := openDriver_cases hworks.opens s
  rw [hrun] at hopened
  rcases hopened with ⟨_, hfault, -⟩ | ⟨c, hc, hresult, hdatabase, hkeys, hlock⟩
  · cases hfault
  · cases ho : (Driver.connect db (some c.config)).run s₀ with
    | mk result s₁ =>
        rw [ho] at hresult hdatabase hkeys hlock
        cases result with
        | error fault => cases hresult
        | ok opened' =>
            cases hresult
            obtain ⟨hrows, hcovers, hfree⟩ := Driver.ready_of_connect
              (hworks.table c hc ▸ hdb.toFaithful) hdb.ping ho
            rw [stored, hview] at hrows
            refine ⟨c, hc, Driver.eq_of_connect ho, ?_, fun hwf => ?_, ?_⟩
            · rw [hdatabase]
              exact hrows
            · rw [Covers, hdatabase, hkeys]
              exact hcovers (by rwa [WellFormed, hview])
            · rw [hlock]
              exact hfree

theorem performed_openDriver (hdb : Dependable db table rows?)
    (hworks : WorksOn db table rows? around i) {s : Session σ}
    {f : Driver σ → Step σ (Driver σ × String)}
    (h : ∀ c s', i.connection? around = some c → Ready rows? s.database s' →
      Performed db rows? i s.database ((f ⟨db, c.config.normalized⟩).run s')) :
    Performed db rows? i s.database ((openDriver around i >>= f).run s) := by
  cases hrun : (openDriver around i).run s with
  | mk result s' =>
      cases result with
      | error fault =>
          rw [Step.run_bind_of_error hrun]
          exact performed_throw (.kept (kept_of_openDriver hdb hworks hrun))
      | ok opened =>
          obtain ⟨c, hc, rfl, hready⟩ := ready_of_openDriver hdb hworks hrun
          rw [Step.run_bind_of_ok hrun]
          exact h c s' hc hready

theorem performed_during {α : Type} {task : Task} {a : Action σ α} {s : Session σ}
    {f : α → Step σ (Driver σ × String)}
    (herror : ∀ fault s', a.run s = (.error fault, s') →
      Effect rows? i d s'.database)
    (hok : ∀ value s', a.run s = (.ok value, s') →
      Performed db rows? i d ((f value).run s')) :
    Performed db rows? i d ((Step.during task a >>= f).run s) := by
  cases hrun : a.run s with
  | mk result s' =>
      cases result with
      | error fault =>
          rw [Step.run_bind_of_error (Step.run_during_of_error hrun)]
          exact performed_throw (herror fault s' hrun)
      | ok value =>
          rw [Step.run_bind_of_ok (Step.run_during_of_ok hrun)]
          exact hok value s' hrun

theorem performed_last {α : Type} {task : Task} {a : Action σ α} {s : Session σ}
    {config : Config} {line : α → String}
    (h : Effect rows? i d (a.run s).2.database) :
    Performed db rows? i d ((Step.during task a >>= fun value =>
      pure ((⟨db, config⟩ : Driver σ), line value)).run s) := by
  refine performed_during (fun fault s' hrun => ?_) fun value s' hrun => ?_
  · rw [hrun] at h
    exact h
  · rw [hrun] at h
    exact performed_pure config (line value) h

theorem performed_locked {α : Type} {task : Task} {a : Action σ α} {s : Session σ}
    {config : Config} {line : α → String} (ha : a.IgnoresLock) (hfree : s.lock = {})
    (h : Effect rows? i d (a.run s).2.database) :
    Performed db rows? i d ((Step.locked ⟨db, config⟩ task a >>= fun value =>
      pure ((⟨db, config⟩ : Driver σ), line value)).run s) := by
  have hlocked := Step.run_locked ⟨db, config⟩ task ha hfree
  rw [Step.run_bind_congr hlocked]
  exact performed_last h

theorem performed_script {file : String} {s : Session σ}
    {f : Source → Step σ (Driver σ × String)}
    (h : ∀ script, around.script file = .ok script →
      Performed db rows? i s.database ((f script).run s)) :
    Performed db rows? i s.database ((openScript around file >>= f).run s) := by
  cases hscript : around.script file with
  | error reason =>
      rw [Step.run_bind_of_error (run_openScript_of_error hscript s)]
      exact performed_throw (.kept (Kept.refl s.database))
  | ok script =>
      rw [Step.run_bind_of_ok (run_openScript_of_ok hscript s)]
      exact h script hscript

section Commands

variable (hdb : Dependable db table rows?)
  (hworks : WorksOn db table rows? around i) {s : Session σ}
include hdb hworks

theorem performed_version {output : OutputFormat}
    (hcommand : i.command = .version output) :
    Performed db rows? i s.database ((perform around now i).run s) := by
  rw [perform, hcommand]
  refine performed_openDriver hdb hworks fun c s' hc hready => ?_
  have hfaithful : Faithful db c.config.normalized.migrationsTable rows? :=
    hworks.table c hc ▸ hdb.toFaithful
  refine performed_last (.kept (hready.kept.trans ?_))
  exact (readCurrent_looks hfaithful s').1.rows

theorem performed_run {file : String} (hcommand : i.command = .run file) :
    Performed db rows? i s.database ((perform around now i).run s) := by
  have hfile : i.script? = some file := by rw [Invocation.script?, hcommand]
  rw [perform, hcommand]
  refine performed_script fun script hscript => ?_
  refine performed_openDriver hdb hworks fun c s' hc hready => ?_
  refine performed_last (.kept (hready.kept.trans (Or.inl ?_)))
  rw [hready.rows]
  exact hworks.spares c file script hc hfile hscript s' _ hready.rows

theorem performed_force {version : Int64} (hwf : WellFormed rows? s.database)
    (hcommand : i.command = .force version) :
    Performed db rows? i s.database ((perform around now i).run s) := by
  rw [perform, hcommand]
  refine performed_openDriver hdb hworks fun c s' hc hready => ?_
  refine performed_last ?_
  have hdatabase := (Driver.setVersion_run ⟨db, c.config.normalized⟩ now version
    false s').2.1
  rw [hdatabase]
  have hinsert := hready.insert (hworks.table c hc ▸ hdb.toFaithful) hwf hready.rows
    now version false
  rcases hinsert with hkept | hadded
  · exact .kept (hready.kept.trans (Or.inl (hkept.trans hready.rows.symm)))
  · exact .forced hcommand rfl hadded

theorem performed_drop {confirmed : Bool}
    (hcommand : i.command = .drop confirmed) :
    Performed db rows? i s.database ((perform around now i).run s) := by
  rw [perform, hcommand]
  cases confirmed with
  | false => exact performed_throw (.kept (Kept.refl s.database))
  | true =>
      refine performed_openDriver hdb hworks fun c s' hc hready => ?_
      refine performed_locked (Driver.dropAll_ignoresLock _) hready.lock ?_
      rcases Driver.dropAll_keepsOrRemoves
        (d := ⟨db, c.config.normalized⟩) hdb s' with hkept | hgone
      · exact .kept (hready.kept.trans (Or.inl hkept))
      · exact .dropped hcommand hgone

theorem performed_apply {version : Int64} {file : String}
    (hwf : WellFormed rows? s.database)
    (hcommand : i.command = .apply version file) :
    Performed db rows? i s.database ((perform around now i).run s) := by
  have hfile : i.script? = some file := by rw [Invocation.script?, hcommand]
  rw [perform, hcommand]
  refine performed_script fun script hscript => ?_
  refine performed_openDriver hdb hworks fun c s' hc hready => ?_
  let opened : Driver σ := ⟨db, c.config.normalized⟩
  have hfaithful : Faithful opened.database opened.config.migrationsTable rows? :=
    hworks.table c hc ▸ hdb.toFaithful
  refine performed_during (fun fault s₁ hrun => ?_) fun state s₁ hrun => ?_
  · have hkept := (readCurrent_looks hfaithful s').1.rows
    rw [show (readCurrent _ _).run s' = _ from hrun] at hkept
    exact .kept (hready.kept.trans hkept)
  · obtain ⟨hready, hstands⟩ := Driver.ready_of_version hfaithful hready hwf hrun
    cases hdirty : state.dirty with
    | true => exact performed_throw (.kept hready.kept)
    | false =>
        refine performed_locked (Driver.apply_ignoresLock _ now version script)
          hready.lock ?_
        have hran := hworks.spares c file script hc hfile hscript s₁ _ hready.rows
        have hdatabase := (Driver.apply_run opened now version script s₁).2.1
        rw [hdatabase]
        rcases hready.insert hfaithful hwf hran now version _ with hkept | hadded
        · exact .kept (hready.kept.trans (Or.inl (hkept.trans hready.rows.symm)))
        · exact .applied hcommand hstands hdirty rfl hadded

theorem performed_perform (hwf : WellFormed rows? s.database) :
    Performed db rows? i s.database ((perform around now i).run s) := by
  cases hcommand : i.command with
  | version output => exact performed_version hdb hworks hcommand
  | apply version file => exact performed_apply hdb hworks hwf hcommand
  | run file => exact performed_run hdb hworks hcommand
  | force version => exact performed_force hdb hworks hwf hcommand
  | drop confirmed => exact performed_drop hdb hworks hcommand

/-- What a command does to the table when it is run to its end. -/
theorem effect_execute (hwf : WellFormed rows? s.database) :
    Effect rows? i s.database (i.execute around now s).2.database := by
  obtain ⟨heffect, hdriver⟩ : Performed db rows? i s.database
    ((perform around now i).run s) := performed_perform hdb hworks hwf
  rw [Invocation.execute]
  cases hrun : (perform around now i).run s with
  | mk result s' =>
      rw [hrun] at heffect hdriver
      cases result with
      | error fault => exact heffect
      | ok o =>
          obtain ⟨opened, line⟩ := o
          have hclose : ((Step.during .closing opened.close).run s').2.database =
              (opened.database.step .close s'.database).2 := by
            rw [Step.run_during, Driver.close, Action.run_bind_pure,
              ← Session.database_call]
            rfl
          have hkept := hdb.close s'.database
          rw [← show opened.database = db from hdriver _ rfl, ← hclose] at hkept
          refine heffect.of_rows_eq ?_
          rw [← hkept]
          simp only
          split <;> simp_all

end Commands

end CommandLine

end SchemaLedger
