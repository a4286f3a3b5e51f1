import SchemaLedger.Engine.Database
import SchemaLedger.Proofs.Engine.Lookup
import SchemaLedger.Proofs.Engine.Places
/-!
# Making sure of a table twice

A store that has created its table leaves it to the stores after it.
`ensureTable_again` says when they find it: if and only if the name is plain. Under
any other name the table is there, but the catalog is searched for another one, so
that each of them tries to create it again and fails.
-/

namespace SchemaLedger.Engine

open Sql VersionStore

variable {name : String} {c : Catalogs} {c₂ : Connection} {place : Place}

/-- What is looked for under a name is there, a table of records. -/
def HoldsTable (catalog : Catalog) (name : String) : Prop :=
  ∃ t, KeepsRecords t ∧
    catalog.find? .table (splitName name).schema (splitName name).table =
      some ⟨(splitName name).schema, (splitName name).table, .table t⟩

theorem HoldsTable.hasRelation {catalog : Catalog} (h : HoldsTable catalog name) :
    catalog.hasRelation (splitName name).schema (splitName name).table = true := by
  obtain ⟨t, -, hfind⟩ := h
  rw [Catalog.hasRelation, List.any_eq_true]
  refine ⟨_, List.mem_of_find?_eq_some hfind, ?_⟩
  simp [Definition.kind, sharesNames]

section Steps

theorem database_step {st : State} {c : Connection} (h : st.connection? = some c)
    (call : Call) (hcall : call ≠ .close) :
    database.step call st =
      ((c.answer call).1, st.withConnection (c.answer call).2) := by
  change st.answer call = _
  rw [State.answer]
  simp only [h, if_neg hcall]

theorem database_step_of_closed {st : State} (h : st.connection? = none)
    (call : Call) : database.step call st = (.error .closed, st) := by
  change st.answer call = _
  rw [State.answer]
  simp only [h]

theorem answer_execute (c : Connection) (sql : String) :
    c.answer (.execute .schema sql) =
      (match (c.runScript sql).1 with
        | .ok () => .ok 0
        | .error fault => .error (faultOf sql fault), (c.runScript sql).2) := rfl

theorem answer_query (c : Connection) (sql : String) :
    c.answer (.query .data sql) =
      (match (c.runLast sql []).1 with
        | .ok outcome => .ok outcome.shown
        | .error fault => .error (faultOf sql fault), (c.runLast sql []).2) := rfl

end Steps

theorem creation_of_ensureTable {s s₁ : Session State} {c₁ : Connection}
    (h : (ensureTable database name).run s = (.ok true, s₁))
    (h₁ : s₁.database.connection? = some c₁) :
    ∃ c place, CreatesAt c name place ∧
      c.stored.hasRelation (splitName name).schema (splitName name).table =
        false ∧
      c₁.catalogs = c.modify false (·.insert (recordEntry c name place)) := by
  obtain ⟨d, n, hlookup, hcreate⟩ := created_of_ensureTable h
  cases hopen : s.database.connection? with
  | none =>
      rw [database_step_of_closed hopen] at hlookup
      cases hlookup
  | some c =>
      rw [database_step hopen _ (by simp)] at hlookup
      obtain ⟨hfound, rfl⟩ := Prod.mk.inj hlookup
      have hreached : (s.database.withConnection
          (c.answer (.relationExists name)).2).connection? = some c := rfl
      rw [database_step hreached _ (by simp), answer_execute] at hcreate
      cases hrun : c.runScript (createSql name) with
      | mk result c' =>
          rw [hrun] at hcreate
          obtain ⟨hanswer, hstate⟩ := Prod.mk.inj hcreate
          cases result with
          | error fault => cases hanswer
          | ok =>
              obtain ⟨haborted, place, hat⟩ := Connection.createsAt_of_runScript hrun
              rw [Connection.runScript_of_createsAt haborted hat] at hrun
              rw [answer_relationExists haborted] at hfound
              rw [← hstate, ← (Prod.mk.inj hrun).2] at h₁
              cases h₁
              exact ⟨c.catalogs, place, hat, Except.ok.inj hfound, rfl⟩

/-- A plain name leads to the table that was created under it. -/
theorem holdsTable_of_isPlain (hat : CreatesAt c name place)
    (hplain : IsPlain c name) :
    HoldsTable (c.stored.insert (recordEntry c name place)) name := by
  have hfree := hat.free
  have hschema := (schemaName_eq_iff hat.target).2 hplain
  rw [recordEntry, hschema]
  rw [hschema] at hfree
  exact ⟨recordTable, keepsRecords_recordTable, find?_insert_self hfree⟩

/-- A table that was created under a name that is not plain is not what is looked
for. -/
theorem hasRelation_of_not_isPlain (hat : CreatesAt c name place)
    (hplain : ¬ IsPlain c name)
    (hmissing : c.stored.hasRelation (splitName name).schema
      (splitName name).table = false) :
    (c.stored.insert (recordEntry c name place)).hasRelation
      (splitName name).schema (splitName name).table = false := by
  have hschema : c.schemaName place ≠ (splitName name).schema :=
    mt (schemaName_eq_iff hat.target).1 hplain
  rw [hasRelation_insert, hmissing, recordEntry, Bool.false_or]
  simp [hschema]

theorem runScript_of_created (hat : CreatesAt c name place)
    (hname : c₂.catalogs.name = c.name)
    (hstored : c₂.catalogs.stored =
      c.stored.insert (recordEntry c name place)) :
    ∃ fault c', c₂.runScript (createSql name) = (.error fault, c') := by
  have hschemas : c₂.catalogs.stored.schemas = c.stored.schemas := by
    rw [hstored]
    rfl
  obtain ⟨-, -, -, htemporary, -⟩ := places_of_target hat.target
  have htarget : c₂.catalogs.target false (tableParts name) = .ok place := by
    rw [target_congr hname hschemas, hat.target]
  have htaken : c₂.catalogs.stored.find? .table (c₂.catalogs.schemaName place)
      (splitName name).table = some (recordEntry c name place) := by
    rw [schemaName_congr hschemas htemporary, hstored]
    exact find?_insert_self hat.free
  exact Connection.runScript_of_taken hat.names htarget htaken

theorem query_of_holdsTable {st : State} (hopen : st.connection? = some c₂)
    (haborted : c₂.aborted = false) (hat : CreatesAt c name place)
    (hplain : IsPlain c name) (hname : c₂.catalogs.name = c.name)
    (h : HoldsTable c₂.catalogs.stored name)
    (hundisturbed : Undisturbed c₂.catalogs) :
    ∃ rows, (database.step (.query .data (maxKeySql name)) st).1 = .ok rows ∧
      IsKeyAnswer rows := by
  have hparts := tableParts_eq_pair hplain.dots
  have htarget := hat.target
  rw [hparts] at htarget
  have halias : (sameName (splitName name).schema Catalogs.temporaryName ||
      sameName (splitName name).schema c₂.catalogs.name) = false := by
    rw [hname]
    obtain habsent | ⟨halias, -⟩ := place_of_target_pair htarget
    · rw [hasSchema_of_find? hplain.spelled] at habsent
      cases habsent
    · exact halias
  obtain ⟨t, ht, hstored⟩ := h
  obtain ⟨_, hfind⟩ := hundisturbed.find?_table halias hstored
  obtain ⟨outcome, hrun, hkey⟩ := Connection.runLast_maxKeySql hparts hat.names
    haborted hfind rfl ht hundisturbed.find?_max
  refine ⟨outcome.shown, ?_, hkey⟩
  rw [database_step hopen _ (by simp), answer_query, hrun]

section Again

variable {s : Session State}

theorem ensureTable_of_createsAt {c₁ : Connection}
    (hopen : s.database.connection? = some c₁) (haborted : c₁.aborted = false)
    (hmissing : c₁.catalogs.stored.hasRelation (splitName name).schema
      (splitName name).table = false)
    (hat : CreatesAt c₁.catalogs name place) :
    ∃ s', (ensureTable database name).run s = (.ok true, s') ∧
      s'.database.connection? = some { c₁ with
        catalogs := c₁.catalogs.modify false
          (·.insert (recordEntry c₁.catalogs name place)) } := by
  have hlookup := database_step hopen (.relationExists name) (by simp)
  rw [answer_relationExists haborted, hmissing] at hlookup
  obtain ⟨s', hcall, hs'⟩ := Session.call_of_step hlookup
  have hconnection : s'.database.connection? = some c₁ := by
    rw [hs']
    rfl
  have hcreation :=
    database_step hconnection (.execute .schema (createSql name)) (by simp)
  rw [answer_execute, Connection.runScript_of_createsAt haborted hat]
    at hcreation
  obtain ⟨hdatabase, hresult⟩ := ensureTable_of_missing hcall
  rw [hcreation] at hdatabase hresult
  exact ⟨_, Prod.ext hresult rfl, by rw [hdatabase]; rfl⟩

theorem ensureTable_of_isPlain (hat : CreatesAt c name place)
    (hplain : IsPlain c name) (hopen : s.database.connection? = some c₂)
    (haborted : c₂.aborted = false) (hname : c₂.catalogs.name = c.name)
    (hholds : HoldsTable c₂.catalogs.stored name) :
    let r := (ensureTable database.recorded name).run (s.recording [])
    r.2.database.2 = [.relationExists name, .query .data (maxKeySql name)] ∧
      r.1 ≠ .ok true ∧ (Undisturbed c₂.catalogs → r.1 = .ok false) := by
  have hlookup := database_step hopen (.relationExists name) (by simp)
  rw [answer_relationExists haborted, hholds.hasRelation] at hlookup
  have hfound : (database.step (.relationExists name) s.database).1 =
      .ok true := by
    rw [hlookup]
  obtain ⟨hcalls, hnot, hkey⟩ := ensureTable_recorded_of_found hfound
  refine ⟨congrArg Prod.snd hcalls, hnot, fun hundisturbed => hkey ?_⟩
  rw [hlookup]
  exact query_of_holdsTable rfl haborted hat hplain hname hholds hundisturbed

theorem ensureTable_of_not_isPlain (hat : CreatesAt c name place)
    (hmissing : c.stored.hasRelation (splitName name).schema
      (splitName name).table = false)
    (hplain : ¬ IsPlain c name) (hopen : s.database.connection? = some c₂)
    (haborted : c₂.aborted = false) (hname : c₂.catalogs.name = c.name)
    (hstored : c₂.catalogs.stored =
      c.stored.insert (recordEntry c name place)) :
    let r := (ensureTable database.recorded name).run (s.recording [])
    r.2.database.2 =
        [.relationExists name, .execute .schema (createSql name)] ∧
      ∃ cause, r.1 = .error (.tableSetup (createSql name) cause) := by
  have hlookup := database_step hopen (.relationExists name) (by simp)
  rw [answer_relationExists haborted, hstored,
    hasRelation_of_not_isPlain hat hplain hmissing] at hlookup
  have hnot : (database.step (.relationExists name) s.database).1 =
      .ok false := by
    rw [hlookup]
  obtain ⟨hcalls, hresult⟩ := ensureTable_recorded_of_missing hnot
  obtain ⟨fault, c', hrun⟩ := runScript_of_created hat hname hstored
  have hreached : (s.database.withConnection c₂).connection? = some c₂ := rfl
  have hcreation :=
    database_step hreached (.execute .schema (createSql name)) (by simp)
  rw [answer_execute, hrun] at hcreation
  rw [hlookup, hcreation] at hresult
  exact ⟨congrArg Prod.snd hcalls, faultOf (createSql name) fault, hresult⟩

end Again

/-- What is looked for under a name is what its identifiers denote if and only if
it has at most one dot. Once a store has created the table, a later one on the same
database that still has it asks for the greatest key and creates nothing, if the
name is plain; otherwise it does not find the table and fails to create it. -/
theorem ensureTable_again (name : String) :
    (∀ current parts,
      ".".intercalate (parts.map quoteIdentifier) = qualifiedTable name →
        (denoted? current parts = some (sought current name) ↔
          name.toList.count '.' ≤ 1)) ∧
    ∀ (s s₁ : Session State) (c₁ : Connection),
      (ensureTable database name).run s = (.ok true, s₁) →
      s₁.database.connection? = some c₁ →
      ∀ (s₂ : Session State) (c₂ : Connection),
        s₂.database.connection? = some c₂ → c₂.aborted = false →
        c₂.catalogs.name = c₁.catalogs.name →
        let r := (ensureTable database.recorded name).run (s₂.recording [])
        (IsPlain c₁.catalogs name → HoldsTable c₂.catalogs.stored name →
          r.2.database.2 =
              [.relationExists name, .query .data (maxKeySql name)] ∧
            r.1 ≠ .ok true ∧ (Undisturbed c₂.catalogs → r.1 = .ok false)) ∧
        (c₂.catalogs.stored = c₁.catalogs.stored →
          (IsPlain c₁.catalogs name → HoldsTable c₂.catalogs.stored name) ∧
          (¬ IsPlain c₁.catalogs name →
            r.2.database.2 =
                [.relationExists name, .execute .schema (createSql name)] ∧
              ∃ cause, r.1 = .error (.tableSetup (createSql name) cause))) := by
  refine ⟨fun current parts htext => ?_, ?_⟩
  · obtain rfl : parts = tableParts name :=
      Token.quotedPath_injective (congrArg String.toList htext)
    exact denoted?_eq_sought_iff current name
  intro s s₁ c₁ hcreated h₁ s₂ c₂ hopen haborted hname r
  obtain ⟨c, place, hat, hmissing, hcatalogs⟩ :=
    creation_of_ensureTable hcreated h₁
  have hstored₁ : c₁.catalogs.stored =
      c.stored.insert (recordEntry c name place) := by
    rw [hcatalogs]
    rfl
  have hname' : c₂.catalogs.name = c.name := by
    rw [hname, hcatalogs]
    rfl
  have hplain : IsPlain c₁.catalogs name ↔ IsPlain c name :=
    isPlain_congr (by rw [hstored₁]; rfl)
  rw [hplain, hstored₁]
  refine ⟨fun hplain hholds =>
    ensureTable_of_isPlain hat hplain hopen haborted hname' hholds,
    fun hstored => ⟨?_, fun hplain =>
      ensureTable_of_not_isPlain hat hmissing hplain hopen haborted hname' hstored⟩⟩
  rw [hstored]
  exact holdsTable_of_isPlain hat

def inMemory : Connection where
  catalogs := { name := Storage.memoryName }

/-- A table without a schema in its name. -/
theorem ensureTable_again_of_default_schema :
    let s : Session State := { database := State.withConnection {} inMemory }
    ∃ s₁, (ensureTable database "versions").run s = (.ok true, s₁) ∧
      let r := (ensureTable database.recorded "versions").run (s₁.recording [])
      r.2.database.2 =
          [.relationExists "versions", .query .data (maxKeySql "versions")] ∧
        r.1 = .ok false := by
  intro s
  have hat : CreatesAt inMemory.catalogs "versions" ⟨false, "main"⟩ :=
    ⟨by decide, by cbv, by cbv⟩
  obtain ⟨s₁, hrun, h₁⟩ := ensureTable_of_createsAt (s := s) rfl rfl rfl hat
  obtain ⟨hfound, hunchanged⟩ :=
    (ensureTable_again "versions").2 s s₁ _ hrun h₁ s₁ _ h₁ rfl rfl
  have hplain : IsPlain (inMemory.catalogs.modify false
      (·.insert (recordEntry inMemory.catalogs "versions" ⟨false, "main"⟩)))
        "versions" :=
    ⟨by decide, by cbv⟩
  obtain ⟨hcalls, -, hfalse⟩ := hfound hplain ((hunchanged rfl).1 hplain)
  exact ⟨s₁, hrun, hcalls, hfalse ⟨rfl, rfl⟩⟩

/-- With a catalog in its name, a table is created once, and then it is neither
found nor created. -/
theorem ensureTable_again_fails :
    let s : Session State := { database := State.withConnection {} inMemory }
    ∃ s₁, (ensureTable database "memory.main.versions").run s = (.ok true, s₁) ∧
      let r := (ensureTable database.recorded "memory.main.versions").run
        (s₁.recording [])
      r.2.database.2 = [.relationExists "memory.main.versions",
          .execute .schema (createSql "memory.main.versions")] ∧
        ∃ cause, r.1 =
          .error (.tableSetup (createSql "memory.main.versions") cause) := by
  intro s
  have hat : CreatesAt inMemory.catalogs "memory.main.versions"
      ⟨false, "main"⟩ :=
    ⟨by decide, by cbv, by cbv⟩
  obtain ⟨s₁, hrun, h₁⟩ := ensureTable_of_createsAt (s := s) rfl rfl rfl hat
  refine ⟨s₁, hrun, ensureTable_of_not_isPlain hat rfl ?_ h₁ rfl rfl rfl⟩
  intro hplain
  exact absurd hplain.dots (by decide)

end SchemaLedger.Engine
