import SchemaLedger.Proofs.CommandLine.Effects
/-!
# Dirty databases

Commands that run one after the other on one database, each a process of its own
with a fresh session. Once the latest record is dirty it stays the latest through
whatever commands come, failing or not, until a force adds a record or a confirmed
drop removes the table; and until then no script is applied. The gate of an apply,
the record that a failed one leaves behind, and the rule that the latest row counts
come together in `dirty_blocks_apply`.
-/

namespace SchemaLedger

variable {σ : Type}

namespace VersionStore

variable {db : Database σ} {table : String} {rows? : σ → Option (List Row)}
  {d d' : σ} {state state' : VersionState}

/-- The table holds records, and the latest says this. -/
def Holds (rows? : σ → Option (List Row)) (d : σ) (state : VersionState) : Prop :=
  ∃ rows, rows? d = some rows ∧ rows ≠ [] ∧
    ∀ row, IsLatest rows row → ∃ r, parseRecord row = .ok r ∧ r.state = state

theorem exists_isLatest {rows : List Row} (h : rows ≠ []) :
    ∃ row, IsLatest rows row := by
  cases hrow : latestRow? rows with
  | none => exact absurd (latestRow?_eq_none hrow) h
  | some row => exact ⟨row, isLatest_of_latestRow? hrow⟩

theorem Holds.eq_of_stands (h : Holds rows? d state)
    (hstands : Stands (stored rows? d) state') : state' = state := by
  obtain ⟨rows, hrows, hne, hlatest⟩ := h
  rw [stored, hrows] at hstands
  rcases hstands with ⟨hnil, -⟩ | ⟨row, r, hrow, hparse, rfl⟩
  · exact absurd hnil hne
  · obtain ⟨r', hparse', rfl⟩ := hlatest row hrow
    rw [hparse] at hparse'
    cases hparse'
    rfl

theorem Holds.eq (h : Holds rows? d state) (h' : Holds rows? d state') :
    state' = state := by
  obtain ⟨rows, hrows, hne, hlatest⟩ := h'
  obtain ⟨row, hrow⟩ := exists_isLatest hne
  obtain ⟨r, hparse, rfl⟩ := hlatest row hrow
  refine h.eq_of_stands (Or.inr ⟨row, r, ?_, hparse, rfl⟩)
  rw [stored, hrows]
  exact hrow

theorem Holds.stored (h : Holds rows? d state) :
    rows? d = some (stored rows? d) := by
  obtain ⟨rows, hrows, -⟩ := h
  rw [VersionStore.stored, hrows]
  rfl

theorem Holds.of_rows_eq (h : Holds rows? d state) (hrows : rows? d' = rows? d) :
    Holds rows? d' state := by
  rw [Holds, hrows]
  exact h

theorem Holds.rows_of_kept (h : Holds rows? d state) (hkept : Kept rows? d d') :
    rows? d' = rows? d := by
  rcases hkept with hkept | ⟨hnone, -⟩
  · exact hkept
  · rw [h.stored] at hnone
    cases hnone

/-- A record that was added above all keys is the latest. -/
theorem Appended.holds {r : VersionRecord} (h : Appended rows? d d' r) :
    Holds rows? d' r.state := by
  refine ⟨_, h.rows, by simp, fun row hrow => ?_⟩
  obtain rfl := eq_of_isLatest_append_singleton h.above hrow
  exact ⟨r, parseRecord_parameters r, rfl⟩

theorem Appended.wellFormed {r : VersionRecord} (h : Appended rows? d d' r)
    (hwf : WellFormed rows? d) : WellFormed rows? d' := by
  intro rows hrows row hrow
  obtain rfl := Option.some.inj (h.rows.symm.trans hrows)
  rcases List.mem_append.1 hrow with hrow | hrow
  · rw [VersionStore.stored] at hrow
    cases hd : rows? d with
    | none => rw [hd] at hrow; cases hrow
    | some rows => rw [hd] at hrow; exact hwf rows hd row hrow
  · obtain rfl := List.mem_singleton.1 hrow
    exact ⟨r, parseRecord_parameters r⟩

theorem Dependable.recorded (h : Dependable db table rows?) :
    Dependable db.recorded table (fun d => rows? d.1) where
  lookup d := h.lookup d.1
  create d := by
    have hcreate := h.create d.1
    rw [Database.step_recorded]
    cases hstep : db.step (.execute .schema (createSql table)) d.1 with
    | mk answer e => rw [hstep] at hcreate; cases answer <;> exact hcreate
  maxKey d := by
    have hmax := h.maxKey d.1
    rw [Database.step_recorded]
    cases hstep : db.step (.query .data (maxKeySql table)) d.1 with
    | mk answer e => rw [hstep] at hmax; cases answer <;> exact hmax
  latest d := by
    have hlatest := h.latest d.1
    rw [Database.step_recorded]
    cases hstep : db.step (.query .data (latestSql table)) d.1 with
    | mk answer e => rw [hstep] at hlatest; cases answer <;> exact hlatest
  insert r d := by
    have hinsert := h.insert r d.1
    rw [Database.step_recorded]
    cases hstep : db.step (.transact (insertSql table) (parameters r)) d.1 with
    | mk answer e => rw [hstep] at hinsert; cases answer <;> exact hinsert
  ping d := h.ping d.1
  close d := h.close d.1
  list d := h.list d.1
  drop o d := h.drop o d.1

theorem dropSql_ne_createSql (object : CatalogObject) (table : String) :
    object.dropSql ≠ createSql table := by
  intro h
  have hdrop : object.dropSql.toList[0]? = some 'D' :=
    getElem?_toList_append (getElem?_toList_append (getElem?_toList_append
      (by simp)))
  have hcreate : (createSql table).toList[0]? = some 'C' :=
    getElem?_toList_append (getElem?_toList_append (getElem?_toList_append
      (by simp)))
  rw [h, hcreate] at hdrop
  simp at hdrop

theorem openTable_dependable (table : String) :
    Dependable (openTable table) table Prod.fst := by
  refine ⟨openTable_faithful table, fun _ => rfl, fun _ => rfl, fun _ => rfl,
    fun object d => ?_⟩
  have hstep : (openTable table).step (.execute .schema object.dropSql) d =
      (.ok 0, d.1, d.2 ++ [object.dropSql]) := by
    simp only [openTable, if_neg (dropSql_ne_createSql object table)]
  rw [hstep]
  exact Or.inl rfl

end VersionStore

namespace CommandLine

open VersionStore

/-- A command with what it finds around it and the clock reading it comes at. Its
calls are recorded. -/
structure Occasion (σ : Type) where
  invocation : Invocation
  around : Surroundings (σ × List Call)
  now : UInt64

namespace Occasion

def session (d : σ) : Session (σ × List Call) :=
  { database := (d, []) }

def run (o : Occasion σ) (d : σ) : Report × Session (σ × List Call) :=
  o.invocation.execute o.around o.now (session d)

def report (o : Occasion σ) (d : σ) : Report :=
  (o.run d).1

def after (o : Occasion σ) (d : σ) : σ :=
  (o.run d).2.database.1

def calls (o : Occasion σ) (d : σ) : List Call :=
  (o.run d).2.database.2

/-- The command works on this database with this migrations table. Opening a
connection to the database leaves the table as it is, and so does each statement
that the script of the command sends, if the table exists. -/
structure On (db : Database σ) (table : String) (rows? : σ → Option (List Row))
    (o : Occasion σ) : Prop where
  table c : o.invocation.connection? o.around = some c →
    c.config.normalized.migrationsTable = table
  opens c factory : o.invocation.connection? o.around = some c →
    o.around.registry.factories.lookup c.scheme = some factory →
      Opens db.recorded (fun e => (rows? e.1, e.2)) c factory
  spares c file script : o.invocation.connection? o.around = some c →
    o.invocation.script? = some file → o.around.script file = .ok script →
      ∀ s, ∀ call ∈ (Driver.mk db c.config.normalized).runCalls script s,
        ∀ e rows, rows? e = some rows → rows? (db.step call e).2 = some rows

/-- A force has added its record, or a confirmed drop has removed the table. -/
def Ends (rows? : σ → Option (List Row)) (d : σ) (o : Occasion σ) : Prop :=
  (∃ version r, o.invocation.command = .force version ∧
    r.state = ⟨version, false⟩ ∧
    rows? (o.after d) = some (stored rows? d ++ [parameters r])) ∨
  o.invocation.command = .drop true ∧ rows? (o.after d) = none

/-- The command fails because of a dirty version, or even before it could read one;
it has looked at the table only, and added nothing. -/
structure Refused (table : String) (rows? : σ → Option (List Row)) (version : Int64)
    (d : σ) (o : Occasion σ) : Prop where
  fault : ∃ fault, (o.report d).failure = some fault ∧
    (fault.Early ∨ fault = .dirty version)
  printed : (o.report d).printed = ""
  calls : ∃ c, Settles table c ∧ o.calls d <+:
    [.ping, .relationExists table, c, .query .data (latestSql table)]
  rows : rows? (o.after d) = rows? d

end Occasion

def after (occasions : List (Occasion σ)) (d : σ) : σ :=
  occasions.foldl (fun d o => o.after d) d

/-- None of the commands, run one after the other, forces a version or drops the
table. -/
def Undisturbed (rows? : σ → Option (List Row)) : σ → List (Occasion σ) → Prop
  | _, [] => True
  | d, o :: later => ¬ o.Ends rows? d ∧ Undisturbed rows? (o.after d) later

variable {db : Database σ} {table : String} {rows? : σ → Option (List Row)}

section Refusal

variable {τ : Type} {view : σ → τ} {around : Surroundings σ} {i : Invocation}
  {now : UInt64} {s : Session σ}

theorem openDriver_calls
    (htable : ∀ c, i.connection? around = some c →
      c.config.normalized.migrationsTable = table)
    (hopens : ∀ c factory, i.connection? around = some c →
      around.registry.factories.lookup c.scheme = some factory →
        Opens db view c factory) (s : Session σ) :
    let r := (openDriver around i).run s
    ∃ e c made, view e = view s.database ∧ Settles table c ∧
      made <+: [.ping, .relationExists table, c] ∧
      (r.1.isOk = true → made = [.ping, .relationExists table, c]) ∧
      (∀ fault, r.1 = .error fault → fault.Early) ∧
      r.2.database = db.after made e := by
  intro r
  obtain ⟨s₀, hview, hopened⟩ := openDriver_cases hopens s
  rcases hopened with ⟨fault, hfault, hearly, hdatabase⟩ |
    ⟨c, hc, hresult, hdatabase, -⟩
  · refine ⟨s₀.database, _, [], hview, Or.inl rfl, List.nil_prefix, ?_, ?_,
      hdatabase⟩
    · rw [show r.1 = _ from hfault]
      exact nofun
    · intro fault' hfault'
      rw [show r.1 = _ from hfault] at hfault'
      cases hfault'
      exact hearly
  · obtain ⟨call, made, hcall, hmade, hall, hafter⟩ :=
      Driver.connect_calls db c.config s₀
    rw [htable c hc] at hcall hmade hall
    refine ⟨s₀.database, call, made, hview, hcall, hmade, fun hok => hall ?_, ?_,
      hdatabase.trans hafter⟩
    · rwa [show r.1 = _ from hresult, isOk_mapError] at hok
    · intro fault hfault
      rw [show r.1 = _ from hresult] at hfault
      exact early_of_opening hfault

theorem reading_refused {opened : Driver σ} {e : σ} {version : Int64}
    (h : Faithful opened.database opened.config.migrationsTable rows?)
    (hready : Ready rows? e s) (hwf : WellFormed rows? e)
    (hdirty : Holds rows? e ⟨version, true⟩) :
    ∃ fault s', (fault.Early ∨ fault = .dirty version) ∧
      s'.database = opened.database.after
        [.query .data (latestSql opened.config.migrationsTable)] s.database ∧
      ∀ {β : Type} (f : VersionState → Step σ β),
        (∀ s', (f ⟨version, true⟩).run s' = (.error (.dirty version), s')) →
          (Step.during .reading opened.version >>= f).run s = (.error fault, s') := by
  have hcalls := opened.version_calls s
  cases hread : opened.version.run s with
  | mk result s' =>
      rw [hread] at hcalls
      cases result with
      | error fault =>
          refine ⟨_, s', Or.inl (.reading fault), hcalls, fun f _ => ?_⟩
          exact Step.run_bind_of_error (Step.run_during_of_error hread) f
      | ok state =>
          obtain ⟨-, hstands⟩ := Driver.ready_of_version h hready hwf hread
          obtain rfl := hdirty.eq_of_stands hstands
          refine ⟨_, s', Or.inr rfl, hcalls, fun f hgate => ?_⟩
          rw [Step.run_bind_of_ok (Step.run_during_of_ok hread), hgate]

/-- Where the table holds a dirty record, an apply opens a driver, reads the version
and goes no further. -/
theorem perform_refused (hdb : Dependable db table rows?)
    (hworks : WorksOn db table rows? around i)
    (hopens : ∀ c factory, i.connection? around = some c →
      around.registry.factories.lookup c.scheme = some factory →
        Opens db view c factory)
    (hwf : WellFormed rows? s.database) {version target : Int64}
    (hdirty : Holds rows? s.database ⟨version, true⟩) {file : String}
    (hcommand : i.command = .apply target file) :
    ∃ fault s' e c made, (perform around now i).run s = (.error fault, s') ∧
      (fault.Early ∨ fault = .dirty version) ∧ view e = view s.database ∧
      Settles table c ∧
      made <+: [.ping, .relationExists table, c, .query .data (latestSql table)] ∧
      s'.database = db.after made e := by
  rw [perform, hcommand]
  cases hscript : around.script file with
  | error reason =>
      have hmissing := run_openScript_of_error hscript s
      exact ⟨_, s, s.database, _, [], Step.run_bind_of_error hmissing _,
        Or.inl (.scriptMissing file reason), rfl, Or.inl rfl, List.nil_prefix, rfl⟩
  | ok script =>
      have hfound := run_openScript_of_ok hscript s
      obtain ⟨e, c, made, hview, hc, hmade, hall, hearly, hafter⟩ :=
        openDriver_calls hworks.table hopens s
      simp only [Step.run_bind_of_ok hfound]
      cases hopen : (openDriver around i).run s with
      | mk result s₁ =>
          rw [hopen] at hall hearly hafter
          cases result with
          | error fault =>
              refine ⟨fault, s₁, e, c, made, Step.run_bind_of_error hopen _,
                Or.inl (hearly fault rfl), hview, hc, ?_, hafter⟩
              exact hmade.trans ⟨[_], rfl⟩
          | ok opened =>
              obtain ⟨c', hc', rfl, hready⟩ := ready_of_openDriver hdb hworks hopen
              have htable := hworks.table c' hc'
              simp only [Step.run_bind_of_ok hopen]
              let opened : Driver σ := ⟨db, c'.config.normalized⟩
              have hfaithful : Faithful opened.database
                  opened.config.migrationsTable rows? := htable ▸ hdb.toFaithful
              obtain ⟨fault, s₂, hfault, hcalls, hrun⟩ :=
                reading_refused hfaithful hready hwf hdirty
              rw [show opened.config.migrationsTable = table from htable, hafter,
                ← Database.after_append, hall rfl] at hcalls
              exact ⟨fault, s₂, e, c, _, hrun _ fun _ => rfl, hfault, hview, hc,
                List.prefix_refl _, hcalls⟩

end Refusal

variable {o : Occasion σ} {d : σ} {version : Int64}

theorem Occasion.On.worksOn (h : o.On db table rows?) :
    WorksOn db.recorded table (fun e => rows? e.1) o.around o.invocation where
  table := h.table
  opens c factory hc hfactory := (h.opens c factory hc hfactory).comp Prod.fst
  spares c file script hc hfile hscript s rows hrows := by
    let opened : Driver σ := ⟨db, c.config.normalized⟩
    let plain : Session σ := { s with database := s.database.1 }
    obtain ⟨made, -, -, hrun⟩ := Driver.run_recorded opened script plain
    have hdatabase : ((Driver.run ⟨db.recorded, c.config.normalized⟩ script).run
        s).2.database.1 = ((opened.run script).run plain).2.database :=
      congrArg (fun p => p.2.database.1) (hrun s.database.2)
    change rows? _ = _
    rw [hdatabase, (Driver.runCalls_spec opened script plain).2]
    exact Database.after_induction (P := fun e => rows? e = some rows)
      (fun call hcall e he => h.spares c file script hc hfile hscript plain call
        hcall e rows he) hrows

theorem Occasion.On.effect (h : o.On db table rows?)
    (hdb : Dependable db table rows?) (hwf : WellFormed rows? d) :
    Effect rows? o.invocation d (o.after d) := by
  have hwf' : WellFormed (fun e => rows? e.1) (Occasion.session d).database := hwf
  have heffect : Effect (fun e => rows? e.1) o.invocation (d, [])
      (o.run d).2.database := effect_execute hdb.recorded h.worksOn hwf'
  cases heffect with
  | kept hkept => exact .kept hkept
  | applied hcommand hstands hclean hversion hadded =>
      exact .applied hcommand hstands hclean hversion ⟨hadded.rows, hadded.above⟩
  | forced hcommand hstate hadded =>
      exact .forced hcommand hstate ⟨hadded.rows, hadded.above⟩
  | dropped hcommand hgone => exact .dropped hcommand hgone

theorem Occasion.On.wellFormed (h : o.On db table rows?)
    (hdb : Dependable db table rows?) (hwf : WellFormed rows? d) :
    WellFormed rows? (o.after d) := by
  cases h.effect hdb hwf with
  | kept hkept => exact hwf.of_kept hkept
  | applied _ _ _ _ hadded => exact hadded.wellFormed hwf
  | forced _ _ hadded => exact hadded.wellFormed hwf
  | dropped _ hgone =>
      intro rows hrows
      rw [hgone] at hrows
      cases hrows

theorem Occasion.On.refused (h : o.On db table rows?)
    (hdb : Dependable db table rows?) (hwf : WellFormed rows? d)
    (hdirty : Holds rows? d ⟨version, true⟩) {target : Int64} {file : String}
    (hcommand : o.invocation.command = .apply target file) :
    o.Refused table rows? version d := by
  have hwf' : WellFormed (fun e => rows? e.1) (Occasion.session d).database := hwf
  have hdirty' : Holds (fun e => rows? e.1) (Occasion.session d).database
    ⟨version, true⟩ := hdirty
  have hopens : ∀ c factory, o.invocation.connection? o.around = some c →
      o.around.registry.factories.lookup c.scheme = some factory →
        Opens db.recorded Prod.snd c factory :=
    fun c factory hc hfactory => (h.opens c factory hc hfactory).comp Prod.snd
  obtain ⟨fault, s, e, c, made, hrun, hfault, hview, hc, hmade, hafter⟩ :=
    perform_refused hdb.recorded h.worksOn hopens hwf' hdirty' hcommand
  have hexecuted : o.run d = ({ failure := some fault }, s) := by
    rw [Occasion.run, Invocation.execute, hrun]
  rw [Database.after_recorded, show e.2 = [] from hview, List.nil_append] at hafter
  refine ⟨⟨fault, ?_, hfault⟩, ?_, ⟨c, hc, ?_⟩, ?_⟩
  · rw [Occasion.report, hexecuted]
  · rw [Occasion.report, hexecuted]
  · rw [Occasion.calls, hexecuted, hafter]
    exact hmade
  · cases h.effect hdb hwf with
    | kept hkept => exact hdirty.rows_of_kept hkept
    | applied _ hstands hclean =>
        obtain rfl := hdirty.eq_of_stands hstands
        cases hclean
    | forced hforce => rw [hcommand] at hforce; cases hforce
    | dropped hdrop => rw [hcommand] at hdrop; cases hdrop

/-- One command leaves the rows as they are, a dirty record with them, unless it
ends that. -/
theorem Occasion.On.holds_iff (h : o.On db table rows?)
    (hdb : Dependable db table rows?) (hwf : WellFormed rows? d)
    (hdirty : Holds rows? d ⟨version, true⟩) :
    (Holds rows? (o.after d) ⟨version, true⟩ ↔ ¬ o.Ends rows? d) ∧
      (¬ o.Ends rows? d → rows? (o.after d) = rows? d) := by
  have hended : o.Ends rows? d → ¬ Holds rows? (o.after d) ⟨version, true⟩ →
      (Holds rows? (o.after d) ⟨version, true⟩ ↔ ¬ o.Ends rows? d) ∧
        (¬ o.Ends rows? d → rows? (o.after d) = rows? d) :=
    fun hends hnot => ⟨⟨fun hstill => absurd hstill hnot,
      fun hcontinues => absurd hends hcontinues⟩,
      fun hcontinues => absurd hends hcontinues⟩
  cases h.effect hdb hwf with
  | kept hkept =>
      have hrows := hdirty.rows_of_kept hkept
      refine ⟨⟨fun _ => ?_, fun _ => hdirty.of_rows_eq hrows⟩, fun _ => hrows⟩
      rintro (⟨_, r, -, -, hadded⟩ | ⟨-, hgone⟩)
      · rw [hrows, hdirty.stored] at hadded
        simp at hadded
      · rw [hrows, hdirty.stored] at hgone
        cases hgone
  | applied _ hstands hclean =>
      obtain rfl := hdirty.eq_of_stands hstands
      cases hclean
  | @forced target r hcommand hstate hadded =>
      refine hended (Or.inl ⟨target, r, hcommand, hstate, hadded.rows⟩) ?_
      intro hstill
      have heq := hadded.holds.eq hstill
      rw [hstate] at heq
      cases heq
  | dropped hcommand hgone =>
      refine hended (Or.inr ⟨hcommand, hgone⟩) ?_
      rintro ⟨rows, hrows, -⟩
      rw [hgone] at hrows
      cases hrows

theorem Occasion.On.holds_of_recorded (h : o.On db table rows?)
    (hdb : Dependable db table rows?) (hwf : WellFormed rows? d) {file : String}
    (hcommand : o.invocation.command = .apply version file) {r : VersionRecord}
    (hrows : rows? (o.after d) = some (stored rows? d ++ [parameters r]))
    (hdirty : r.dirty = true) : Holds rows? (o.after d) ⟨version, true⟩ := by
  cases h.effect hdb hwf with
  | kept hkept =>
      have hstored := hkept.stored_eq
      rw [stored, hrows] at hstored
      simp at hstored
  | @applied _ _ _ r' hcommand' _ _ hversion hadded =>
      have hr : parameters r' = parameters r := by
        have hsame := hadded.rows.symm.trans hrows
        simpa using hsame
      obtain rfl : r' = r := Except.ok.inj <| by
        rw [← parseRecord_parameters r', ← parseRecord_parameters r, hr]
      rw [hcommand] at hcommand'
      cases hcommand'
      have hholds := hadded.holds
      rw [VersionRecord.state, hversion, hdirty] at hholds
      exact hholds
  | forced hforce => rw [hcommand] at hforce; cases hforce
  | dropped hdrop => rw [hcommand] at hdrop; cases hdrop

theorem wellFormed_after (hdb : Dependable db table rows?)
    {occasions : List (Occasion σ)} (hon : ∀ o ∈ occasions, o.On db table rows?)
    (hwf : WellFormed rows? d) : WellFormed rows? (after occasions d) := by
  induction occasions generalizing d with
  | nil => exact hwf
  | cons o later ih =>
      have ho := hon o List.mem_cons_self
      exact ih (fun o h => hon o (List.mem_cons_of_mem _ h)) (ho.wellFormed hdb hwf)

theorem rows_after (hdb : Dependable db table rows?)
    {occasions : List (Occasion σ)} (hon : ∀ o ∈ occasions, o.On db table rows?)
    (hwf : WellFormed rows? d) (hdirty : Holds rows? d ⟨version, true⟩)
    (hundisturbed : Undisturbed rows? d occasions) :
    rows? (after occasions d) = rows? d := by
  induction occasions generalizing d with
  | nil => rfl
  | cons o later ih =>
      obtain ⟨hnot, hlater⟩ := hundisturbed
      have ho := hon o List.mem_cons_self
      obtain ⟨-, hkept⟩ := ho.holds_iff hdb hwf hdirty
      have hrows := hkept hnot
      have hrest := ih (fun o h => hon o (List.mem_cons_of_mem _ h))
        (ho.wellFormed hdb hwf) (hdirty.of_rows_eq hrows) hlater
      exact hrest.trans hrows

/-- Commands on one database, one after the other. Wherever its latest record is
dirty, it stays so, and each apply is refused, through whatever commands follow,
until a force adds a record or a confirmed drop removes the table. In particular
this is so after an apply that has added a dirty record. -/
theorem dirty_blocks_apply (hdb : Dependable db table rows?) (d : σ)
    (hwf : WellFormed rows? d) (earlier : List (Occasion σ))
    (hearlier : ∀ o ∈ earlier, o.On db table rows?) :
    let d₁ := after earlier d
    (∀ (o : Occasion σ) (version : Int64) (file : String) (r : VersionRecord),
      o.On db table rows? → o.invocation.command = .apply version file →
      rows? (o.after d₁) = some (stored rows? d₁ ++ [parameters r]) →
      r.dirty = true → Holds rows? (o.after d₁) ⟨version, true⟩) ∧
    ∀ (version : Int64) (later : List (Occasion σ)),
      Holds rows? d₁ ⟨version, true⟩ → (∀ o ∈ later, o.On db table rows?) →
      Undisturbed rows? d₁ later →
      let d₂ := after later d₁
      Holds rows? d₂ ⟨version, true⟩ ∧ rows? d₂ = rows? d₁ ∧
      ∀ o : Occasion σ, o.On db table rows? →
        (∀ target file, o.invocation.command = .apply target file →
          o.Refused table rows? version d₂) ∧
        (Holds rows? (o.after d₂) ⟨version, true⟩ ↔ ¬ o.Ends rows? d₂) ∧
        (¬ o.Ends rows? d₂ → rows? (o.after d₂) = rows? d₂) := by
  intro d₁
  have hwf₁ : WellFormed rows? d₁ := wellFormed_after hdb hearlier hwf
  refine ⟨fun o version file r ho hcommand hrows hdirty =>
    ho.holds_of_recorded hdb hwf₁ hcommand hrows hdirty, ?_⟩
  intro version later hdirty hlater hundisturbed d₂
  have hwf₂ : WellFormed rows? d₂ := wellFormed_after hdb hlater hwf₁
  have hrows : rows? d₂ = rows? d₁ :=
    rows_after hdb hlater hwf₁ hdirty hundisturbed
  have hdirty₂ := hdirty.of_rows_eq hrows
  exact ⟨hdirty₂, hrows, fun o ho =>
    ⟨fun target file hcommand => ho.refused hdb hwf₂ hdirty₂ hcommand,
      ho.holds_iff hdb hwf₂ hdirty₂⟩⟩

/-- A command on a database that holds the default table and writes down every other
statement. -/
def Occasion.onTable (command : Command) (script : Source) (now : UInt64) :
    Occasion (Option (List Row) × List String) where
  invocation :=
    { verbose := false, database := some "duckdb:///app.db", config := none, command }
  around :=
    { registry := ⟨[("duckdb", fun c =>
        Driver.connect (openTable Config.defaultTable).recorded (some c.config))]⟩
      script := fun _ => .ok script
      configFile := fun _ => .missing }
  now

theorem Occasion.onTable_on (command : Command) (script : Source) (now : UInt64) :
    (onTable command script now).On (openTable Config.defaultTable)
      Config.defaultTable Prod.fst := by
  refine ⟨fun c hc => ?_, fun c factory _ hfactory => ?_,
    fun c file script _ _ _ s call hcall e rows hrows => ?_⟩
  · have htable : (ConnectionString.parse {} "duckdb:///app.db").1.toOption.map
        (·.config.normalized.migrationsTable) = some Config.defaultTable := by
      decide +kernel
    have hparse : (ConnectionString.parse {} "duckdb:///app.db").1.toOption =
      some c := hc
    rw [hparse] at htable
    exact Option.some.inj htable
  · have hlookup : List.lookup c.scheme [("duckdb", _)] = some factory := hfactory
    rw [List.lookup_cons] at hlookup
    split at hlookup
    · cases hlookup
      exact fun s => ⟨s, rfl, Or.inl rfl⟩
    · cases hlookup
  · obtain ⟨mode, sql, rfl⟩ := (Driver.runCalls_spec _ script s).1 call hcall
    obtain ⟨stored, written⟩ := e
    obtain rfl : stored = some rows := hrows
    simp only [openTable]
    split <;> rfl

/-- A script that cannot be read is applied. The next apply is refused, and a force
puts an end to that. -/
theorem dirty_blocks_apply_of_failing_read :
    let failed := Occasion.onTable (.apply 2 "2.sql") [.failed "disk"] 9
    let shown := Occasion.onTable (.version .text) [] 10
    let next := Occasion.onTable (.apply 3 "3.sql") [] 11
    let forced := Occasion.onTable (.force 2) [] 12
    let d : Option (List Row) × List String := (some [parameters ⟨5, 1, false⟩], [])
    let d₂ := after [shown] (after [failed] d)
    Holds Prod.fst d₂ ⟨2, true⟩ ∧ next.Refused Config.defaultTable Prod.fst 2 d₂ ∧
      ¬ Holds Prod.fst (forced.after d₂) ⟨2, true⟩ := by
  intro failed shown next forced d d₂
  have hwf : WellFormed Prod.fst d := by
    rintro rows ⟨⟩ row hrow
    obtain rfl := List.mem_singleton.1 hrow
    exact ⟨_, parseRecord_parameters _⟩
  have hdb := openTable_dependable Config.defaultTable
  have hnone : ∀ o ∈ ([] : List (Occasion (Option (List Row) × List String))),
    o.On (openTable Config.defaultTable) Config.defaultTable Prod.fst := nofun
  have hfailed : ∀ o ∈ [failed],
      o.On (openTable Config.defaultTable) Config.defaultTable Prod.fst := by
    intro o ho
    obtain rfl := List.mem_singleton.1 ho
    exact Occasion.onTable_on _ _ _
  have hshown : ∀ o ∈ [shown],
      o.On (openTable Config.defaultTable) Config.defaultTable Prod.fst := by
    intro o ho
    obtain rfl := List.mem_singleton.1 ho
    exact Occasion.onTable_on _ _ _
  have hdirty : Holds Prod.fst (after [failed] d) ⟨2, true⟩ :=
    (dirty_blocks_apply hdb d hwf [] hnone).1 failed 2 "2.sql" ⟨9, 2, true⟩
      (Occasion.onTable_on _ _ _) rfl (by decide +kernel) rfl
  have hundisturbed : Undisturbed Prod.fst (after [failed] d) [shown] := by
    refine ⟨?_, trivial⟩
    rintro (⟨_, _, hcommand, -⟩ | ⟨hcommand, -⟩) <;> cases hcommand
  obtain ⟨hholds, -, hnext⟩ := (dirty_blocks_apply hdb d hwf [failed] hfailed).2 2
    [shown] hdirty hshown hundisturbed
  have hforced : forced.Ends Prod.fst d₂ :=
    Or.inl ⟨2, ⟨12, 2, false⟩, rfl, rfl, by decide +kernel⟩
  refine ⟨hholds, (hnext next (Occasion.onTable_on _ _ _)).1 3 "3.sql" rfl, ?_⟩
  intro hstill
  exact (hnext forced (Occasion.onTable_on _ _ _)).2.1.1 hstill hforced

end CommandLine

end SchemaLedger
