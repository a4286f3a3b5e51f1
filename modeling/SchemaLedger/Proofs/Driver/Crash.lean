import SchemaLedger.Proofs.Driver.Recording
import SchemaLedger.Proofs.Version.Runs
/-!
# Crashes

A process that dies between two calls leaves the database where the calls made by
then have led it. Applying a script adds its record last, so what a driver reports
that is opened afterwards depends on that one call. Once the record has been
added, it is the version and how the script went. Until then it is what the table
says, and a script that leaves the table alone leaves no trace in it, whatever
else it has done.
-/

namespace SchemaLedger

variable {σ : Type}

namespace VersionStore

/-- The rows of the table were kept, or it has been created. -/
def Kept (rows? : σ → Option (List Row)) (d d' : σ) : Prop :=
  rows? d' = rows? d ∨ rows? d = none ∧ rows? d' = some []

namespace Kept

variable {rows? : σ → Option (List Row)} {d d' d'' : σ}

theorem refl (d : σ) : Kept rows? d d :=
  Or.inl rfl

theorem trans (h : Kept rows? d d') (h' : Kept rows? d' d'') :
    Kept rows? d d'' := by
  rcases h with hkept | ⟨hnone, hnil⟩
  · rcases h' with hkept' | ⟨hnone', hnil'⟩
    · exact Or.inl (hkept'.trans hkept)
    · exact Or.inr ⟨hkept.symm.trans hnone', hnil'⟩
  · rcases h' with hkept' | ⟨hnone', -⟩
    · exact Or.inr ⟨hnone, hkept'.trans hnil⟩
    · rw [hnil] at hnone'
      cases hnone'

theorem stored_eq (h : Kept rows? d d') : stored rows? d' = stored rows? d := by
  rw [stored, stored]
  rcases h with hkept | ⟨hnone, hnil⟩
  · rw [hkept]
  · rw [hnone, hnil]
    rfl

end Kept

/-- A database that holds a table as `soleTable` does, and executes every other
statement by writing it down. -/
def openTable (table : String) : Database (Option (List Row) × List String) where
  name := "table"
  step
    | .ping, e => (.ok (), e)
    | .execute mode sql, e =>
      if sql = createSql table then
        (((soleTable table).step (.execute mode sql) e.1).1,
          ((soleTable table).step (.execute mode sql) e.1).2, e.2)
      else (.ok 0, e.1, e.2 ++ [sql])
    | c, e =>
      (((soleTable table).step c e.1).1, ((soleTable table).step c e.1).2, e.2)

theorem openTable_faithful (table : String) :
    Faithful (openTable table) table Prod.fst where
  lookup e := (soleTable_faithful table).lookup e.1
  create e := by
    have h := (soleTable_faithful table).create e.1
    simp only [openTable, if_pos]
    split at h <;> simp_all
  maxKey e := by
    have h := (soleTable_faithful table).maxKey e.1
    simp only [openTable]
    split at h <;> simp_all
  latest e := by
    have h := (soleTable_faithful table).latest e.1
    simp only [openTable]
    split at h <;> simp_all
  insert r e := by
    have h := (soleTable_faithful table).insert r e.1
    simp only [openTable]
    split at h <;> simp_all

end VersionStore

open VersionStore

theorem exists_of_isOk {ε α : Type} {r : Except ε α} (h : r.isOk = true) :
    ∃ a, r = .ok a := by
  cases r with
  | error e => cases h
  | ok a => exact ⟨a, rfl⟩

namespace Action

variable {α β : Type}

theorem exists_of_run_bind {x : Action σ α} {f : α → Action σ β}
    {s s' : Session σ} {b : β} (h : (x >>= f).run s = (.ok b, s')) :
    ∃ a s₁, x.run s = (.ok a, s₁) ∧ (f a).run s₁ = (.ok b, s') := by
  cases hx : x.run s with
  | mk result s₁ =>
      cases result with
      | error fault => rw [run_bind_of_error hx] at h; cases h
      | ok a => exact ⟨a, s₁, rfl, (run_bind_of_ok hx f).symm.trans h⟩

def Keeps (rows? : σ → Option (List Row)) (x : Action σ α) : Prop :=
  ∀ s, Kept rows? s.database (x.run s).2.database

variable {rows? : σ → Option (List Row)} {x : Action σ α}

theorem Keeps.bind {f : α → Action σ β} (hx : Keeps rows? x)
    (hf : ∀ a, Keeps rows? (f a)) : Keeps rows? (x >>= f) :=
  run_bind_induction Kept.trans hx hf

theorem keeps_of_database (h : ∀ s, (x.run s).2.database = s.database) :
    Keeps rows? x := by
  intro s
  rw [h s]
  exact Kept.refl s.database

theorem keeps_call {db : Database σ} {c : Call}
    (h : ∀ d, rows? (db.step c d).2 = rows? d)
    (fault : DatabaseError → MigrationError) : Keeps rows? (call db c fault) := by
  intro s
  have hdatabase := Session.database_call db c s
  refine Or.inl ?_
  change rows? (s.call db c).2.database = _
  rw [hdatabase, h]

end Action

namespace Driver

variable {rows? : σ → Option (List Row)}

theorem ensureTable_keeps {d : Driver σ}
    (h : Faithful d.database d.config.migrationsTable rows?) :
    Action.Keeps rows? d.ensureTable := by
  refine .bind (Action.keeps_of_database fun _ => rfl) fun _ => ?_
  refine .bind (fun s => (ensureTable_looks h s).rows) fun created => ?_
  refine .bind (Action.keeps_of_database fun _ => rfl) fun released => ?_
  refine Action.keeps_of_database fun s => ?_
  cases created <;> cases released <;> rfl

variable {db : Database σ} {given : Config}

theorem connect_keeps (h : Faithful db given.normalized.migrationsTable rows?)
    (hping : ∀ d, rows? (db.step .ping d).2 = rows? d) :
    Action.Keeps rows? (connect db (some given)) := by
  refine .bind (Action.keeps_of_database fun _ => rfl) fun _ => ?_
  refine .bind (Action.keeps_call hping .connection) fun _ => ?_
  refine .bind (Action.keeps_of_database fun _ => rfl) fun _ => ?_
  refine .bind (ensureTable_keeps h) fun _ => ?_
  exact Action.keeps_of_database fun _ => rfl

theorem eq_of_connect {s s' : Session σ} {opened : Driver σ}
    (hrun : (connect db (some given)).run s = (.ok opened, s')) :
    opened = ⟨db, given.normalized⟩ := by
  obtain ⟨_, _, -, hrun⟩ := Action.exists_of_run_bind hrun
  obtain ⟨_, _, -, hrun⟩ := Action.exists_of_run_bind hrun
  obtain ⟨_, _, -, hrun⟩ := Action.exists_of_run_bind hrun
  obtain ⟨_, _, -, hrun⟩ := Action.exists_of_run_bind hrun
  cases hrun
  rfl

theorem version_of_connect
    (h : Faithful db given.normalized.migrationsTable rows?)
    (hping : ∀ e, rows? (db.step .ping e).2 = rows? e) {s s' : Session σ}
    (hwf : WellFormed rows? s.database) {opened : Driver σ}
    (hopened : (connect db (some given)).run s = (.ok opened, s'))
    {answer : List Row} {e : σ}
    (hquery : db.step (.query .data (latestSql given.normalized.migrationsTable))
      s'.database = (.ok answer, e)) :
    ∃ state, (opened.version.run s').1 = .ok state ∧
      Stands (stored rows? s.database) state := by
  have hkept : Kept rows? s.database s'.database := by
    have hkept := connect_keeps h hping s
    rw [hopened] at hkept
    exact hkept
  obtain rfl := eq_of_connect hopened
  obtain ⟨rows, state, hrows, hstands, hversion⟩ :=
    (readCurrent_looks h s').2 answer e hquery (hwf.of_kept hkept)
  refine ⟨state, hversion, ?_⟩
  rw [← hkept.stored_eq, stored, hrows]
  exact hstands

variable (d : Driver σ) (now : UInt64) (version : Int64) (script : Source)
  (s : Session σ)

def runCalls : List Call :=
  ((d.recorded.run script).run (s.recording [])).2.database.2

def applyCalls : List Call :=
  ((d.recorded.apply now version script).run (s.recording [])).2.database.2

/-- The record of how a script went. -/
def record : VersionRecord :=
  recordOf now version s ((d.run script).run s).1.isOk

theorem applyCalls_eq :
    d.applyCalls now version script s =
      d.runCalls script s ++ [d.insertion (d.record now version script s)] :=
  congrArg Prod.snd (apply_recorded d now version script s [])

theorem runCalls_spec :
    (∀ c ∈ d.runCalls script s, ∃ mode sql, c = .execute mode sql) ∧
      ((d.run script).run s).2.database =
        d.database.after (d.runCalls script s) s.database := by
  obtain ⟨made, hmade, hafter, hrun⟩ := run_recorded d script s
  have hcalls : d.runCalls script s = made :=
    congrArg (fun p => p.2.database.2) (hrun [])
  rw [hcalls]
  exact ⟨hmade, hafter⟩

/-- All calls of applying a script have been made, and the last has added the
record. -/
def Committed (made : List Call) : Prop :=
  made = d.applyCalls now version script s ∧
    (d.database.step (d.insertion (d.record now version script s))
      ((d.run script).run s).2.database).1.isOk = true

end Driver

theorem Database.rows_after {db : Database σ} {rows? : σ → Option (List Row)}
    {calls : List Call} (h : ∀ c ∈ calls, ∀ e, rows? (db.step c e).2 = rows? e)
    (e : σ) : rows? (db.after calls e) = rows? e :=
  after_induction (P := fun e' => rows? e' = rows? e)
    (fun c hc e' he' => (h c hc e').trans he') rfl

namespace Driver

variable {rows? : σ → Option (List Row)} {d : Driver σ} {now : UInt64}
  {version : Int64} {script : Source} {s : Session σ} {made : List Call}

theorem Committed.rows (h : Faithful d.database d.config.migrationsTable rows?)
    (hmade : d.Committed now version script s made) :
    ∃ rows, rows? ((d.run script).run s).2.database = some rows ∧
      (∀ row ∈ rows, key row ≠ s.keys.issue now) ∧
      rows? (d.database.after made s.database) =
        some (rows ++ [parameters (d.record now version script s)]) := by
  obtain ⟨rfl, hok⟩ := hmade
  have hinsert := h.insert (d.record now version script s)
    ((d.run script).run s).2.database
  rw [applyCalls_eq, Database.after_append, ← (runCalls_spec d script s).2]
  change ∃ rows, _ ∧ _ ∧ rows? (d.database.step
    (d.insertion (d.record now version script s)) _).2 = _
  cases hstep : d.database.step (d.insertion (d.record now version script s))
      ((d.run script).run s).2.database with
  | mk answer e =>
      rw [hstep] at hok
      rw [show d.database.step (.transact _ _) _ = _ from hstep] at hinsert
      cases answer with
      | error cause => cases hok
      | ok n => exact hinsert

/-- Before the record has been added, statements that leave the table alone have
left no trace in it. -/
theorem rows_of_not_committed
    (h : Faithful d.database d.config.migrationsTable rows?)
    (hbegun : made <+: d.applyCalls now version script s)
    (hmade : ¬ d.Committed now version script s made)
    (hscript : ∀ mode sql, .execute mode sql ∈ made →
      ∀ e, rows? (d.database.step (.execute mode sql) e).2 = rows? e) :
    rows? (d.database.after made s.database) = rows? s.database := by
  have hran : ∀ calls ⊆ made, calls ⊆ d.runCalls script s →
      rows? (d.database.after calls s.database) = rows? s.database := by
    intro calls hcalls hrun
    refine Database.rows_after (fun c hc => ?_) s.database
    obtain ⟨mode, sql, rfl⟩ := (runCalls_spec d script s).1 c (hrun hc)
    exact hscript mode sql (hcalls hc)
  rw [applyCalls_eq, List.prefix_concat_iff] at hbegun
  rcases hbegun with rfl | hbegun
  · -- The last call was made, and has failed.
    have hkept := hran _ (List.subset_append_left _ _) (List.Subset.refl _)
    have hinsert := h.insert (d.record now version script s)
      ((d.run script).run s).2.database
    rw [Database.after_append, ← hkept, ← (runCalls_spec d script s).2]
    change rows? (d.database.step
      (d.insertion (d.record now version script s)) _).2 = _
    cases hstep : d.database.step (d.insertion (d.record now version script s))
        ((d.run script).run s).2.database with
    | mk answer e =>
        rw [show d.database.step (.transact _ _) _ = _ from hstep] at hinsert
        cases answer with
        | error cause => exact hinsert
        | ok n =>
            refine absurd ⟨(applyCalls_eq d now version script s).symm, ?_⟩ hmade
            rw [hstep]
            rfl
  · exact hran made (List.Subset.refl _) hbegun.subset

/-- A driver that is opened after a crash reports the version and how the script
went if the record has been added. Otherwise it reports where the table stands,
and if the statements executed by then have left the table alone, that is where it
stood before the script. -/
theorem crash_reports (h : Faithful d.database d.config.migrationsTable rows?)
    (hping : ∀ e, rows? (d.database.step .ping e).2 = rows? e)
    {reopen : σ → σ} (hreopen : ∀ e, rows? (reopen e) = rows? e)
    (hbegun : made <+: d.applyCalls now version script s)
    (hwf : WellFormed rows? (d.database.after made s.database))
    {given : Config}
    (hgiven : given.normalized.migrationsTable = d.config.migrationsTable)
    {s' s'' : Session σ}
    (hs' : s'.database = reopen (d.database.after made s.database))
    {opened : Driver σ}
    (hopened : (connect d.database (some given)).run s' = (.ok opened, s''))
    {answer : List Row} {e : σ}
    (hquery : d.database.step
      (.query .data (latestSql d.config.migrationsTable)) s''.database =
        (.ok answer, e)) :
    ∃ state, (opened.version.run s'').1 = .ok state ∧
      (d.Committed now version script s made →
        Covers rows? ((d.run script).run s).2.database s.keys →
        state = ⟨version, !((d.run script).run s).1.isOk⟩) ∧
      (¬ d.Committed now version script s made →
        Stands (stored rows? (d.database.after made s.database)) state) ∧
      (¬ d.Committed now version script s made →
        (∀ mode sql, .execute mode sql ∈ made →
          ∀ e, rows? (d.database.step (.execute mode sql) e).2 = rows? e) →
        Stands (stored rows? s.database) state) := by
  have hrows' : rows? s'.database =
      rows? (d.database.after made s.database) := by
    rw [hs', hreopen]
  have hwf' : WellFormed rows? s'.database := by
    rw [WellFormed, hrows']
    exact hwf
  rw [← hgiven] at h hquery
  obtain ⟨state, hversion, hstands⟩ :=
    version_of_connect h hping hwf' hopened hquery
  rw [hgiven] at h
  rw [stored, hrows', ← stored] at hstands
  refine ⟨state, hversion, fun hmade hcovers => ?_, fun _ => hstands,
    fun hmade hscript => ?_⟩
  · obtain ⟨rows, hran, hnew, hrows⟩ := hmade.rows h
    rw [stored, hrows] at hstands
    refine eq_of_stands_of_shows (parseRecord_parameters _) (fun row hrow => ?_)
      hstands
    have hle := hcovers rows hran row hrow
    rw [key_parameters]
    exact UInt64.lt_of_le_of_ne
      (UInt64.le_trans hle (SequenceKeys.le_issue s.keys now)) (hnew row hrow)
  · rw [stored, rows_of_not_committed h hbegun hmade hscript] at hstands
    exact hstands

/-- Two drivers, one after the other, on a table that holds one record. -/
theorem crash_reports_of_done :
    let d : Driver (Option (List Row) × List String) :=
      ⟨openTable "versions", { migrationsTable := "versions" }⟩
    let s : Session (Option (List Row) × List String) :=
      { database := (some [parameters ⟨5, 1, false⟩], []), keys := ⟨5⟩ }
    let script : Source := [.bytes (Utf8.encode "drop users")]
    let done := d.database.after (d.applyCalls 3 2 script s) s.database
    let o := (connect d.database (some d.config)).run { database := done }
    ∃ opened, o.1 = .ok opened ∧ (opened.version.run o.2).1 = .ok ⟨2, false⟩ := by
  intro d s script done o
  obtain ⟨opened, hopened⟩ := exists_of_isOk
    (show o.1.isOk = true by decide +kernel)
  obtain ⟨answer, hquery⟩ := exists_of_isOk
    (show (d.database.step (.query .data (latestSql d.config.migrationsTable))
      o.2.database).1.isOk = true by decide +kernel)
  have hran : ((d.run script).run s).1.isOk = true ∧
      ((d.run script).run s).2.database =
        (some [parameters ⟨5, 1, false⟩], ["drop users"]) := by
    decide +kernel
  have hadded : (d.database.step (d.insertion (d.record 3 2 script s))
      ((d.run script).run s).2.database).1.isOk = true := by decide +kernel
  have hdone : done.1 =
      some [parameters ⟨5, 1, false⟩, parameters ⟨6, 2, false⟩] := by
    decide +kernel
  have hwf : WellFormed Prod.fst done := by
    rw [WellFormed, hdone]
    rintro rows ⟨⟩ row hrow
    simp only [List.mem_cons, List.not_mem_nil, or_false] at hrow
    rcases hrow with rfl | rfl
    · exact ⟨_, parseRecord_parameters _⟩
    · exact ⟨_, parseRecord_parameters _⟩
  have hcovers : Covers Prod.fst ((d.run script).run s).2.database s.keys := by
    rw [Covers, hran.2]
    rintro rows ⟨⟩
    decide
  have hbegun : d.applyCalls 3 2 script s <+: d.applyCalls 3 2 script s :=
    List.prefix_refl _
  have hreopen : ∀ e : Option (List Row) × List String, (id e).1 = e.1 :=
    fun _ => rfl
  have hgiven : d.config.normalized.migrationsTable = d.config.migrationsTable := by
    decide +kernel
  have hconnect : o = (.ok opened, o.2) := by rw [← hopened]
  have hstep : d.database.step
      (.query .data (latestSql d.config.migrationsTable)) o.2.database =
        (.ok answer, (d.database.step (.query .data
          (latestSql d.config.migrationsTable)) o.2.database).2) := by
    rw [← hquery]
  have hdb : Faithful d.database d.config.migrationsTable Prod.fst :=
    openTable_faithful "versions"
  obtain ⟨state, hversion, hcommitted, -⟩ := crash_reports hdb (fun _ => rfl)
    hreopen hbegun hwf hgiven rfl hconnect hstep
  rw [hcommitted ⟨rfl, hadded⟩ hcovers, hran.1] at hversion
  exact ⟨opened, hopened, hversion⟩

/-- A statement has been executed, the process has died before it could add the
record, and the driver opened afterwards reports the version from before. -/
theorem crash_not_reported :
    let d : Driver (Option (List Row) × List String) :=
      ⟨openTable "versions", { migrationsTable := "versions" }⟩
    let s : Session (Option (List Row) × List String) :=
      { database := (some [parameters ⟨5, 1, false⟩], []), keys := ⟨5⟩ }
    let made : List Call := [.execute .schema "drop users"]
    d.applyCalls 9 2 [.bytes (Utf8.encode "drop users")] s =
        made ++ [d.insertion ⟨9, 2, false⟩] ∧
      (d.database.step (.execute .schema "drop users") s.database).1.isOk = true ∧
      ((connect d.database (some d.config) >>= Driver.version).run
        { database := d.database.after made s.database }).1 =
          .ok ⟨1, false⟩ := by
  intro d s made
  have hversion : ((connect d.database (some d.config) >>= Driver.version).run
      { database := d.database.after made s.database }).1.toOption =
        some ⟨1, false⟩ := by
    decide +kernel
  have hcalls : d.applyCalls 9 2 [.bytes (Utf8.encode "drop users")] s =
      made ++ [d.insertion ⟨9, 2, false⟩] := by
    decide +kernel
  have hexecuted : (d.database.step (.execute .schema "drop users")
      s.database).1.isOk = true := by
    decide +kernel
  refine ⟨hcalls, hexecuted, ?_⟩
  generalize ((connect d.database (some d.config) >>= Driver.version).run
      { database := d.database.after made s.database }).1 = result at hversion
  cases result with
  | error fault => cases hversion
  | ok state => exact congrArg Except.ok (Option.some.inj hversion)

end Driver

end SchemaLedger
