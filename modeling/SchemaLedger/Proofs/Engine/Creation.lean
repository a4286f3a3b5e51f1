import SchemaLedger.Proofs.Engine.Reading
/-!
# Creating a migrations table

What the engine does when it is given the statement that creates a migrations
table: it enters an empty table in the schema that the path leads to, under the
last name of the path and with the schema as that was created, or it refuses and
has entered nothing. A table cannot be created twice.
-/

namespace SchemaLedger.Engine

open Sql VersionStore

namespace Work

variable {α β : Type}

/-- Work that is done on catalogs. -/
def on (w : Work α) (c : Catalogs) : Except Fault α × Catalogs :=
  StateT.run (ExceptT.run w) c

theorem on_bind_of_ok {w : Work α} {c c' : Catalogs} {a : α}
    (h : w.on c = (.ok a, c')) (f : α → Work β) :
    (w >>= f).on c = (f a).on c' := by
  have hw : (StateT.run (ExceptT.run w) c : Id _) = (.ok a, c') := h
  simp only [on, ExceptT.run_bind, StateT.run_bind, hw]
  rfl

theorem on_bind_of_error {w : Work α} {c c' : Catalogs} {fault : Fault}
    (h : w.on c = (.error fault, c')) (f : α → Work β) :
    (w >>= f).on c = (.error fault, c') := by
  have hw : (StateT.run (ExceptT.run w) c : Id _) = (.error fault, c') := h
  simp only [on, ExceptT.run_bind, StateT.run_bind, hw]
  rfl

theorem on_get (c : Catalogs) : (get : Work Catalogs).on c = (.ok c, c) := rfl

theorem on_of (r : Except Fault α) (c : Catalogs) : (of r).on c = (r, c) := by
  cases r <;> rfl

theorem on_find? {c : Catalogs} {kind : ObjectKind} {path : Path}
    {found? : Option (Place × Entry)} (h : c.find? kind path = .ok found?) :
    (find? kind path).on c = (.ok found?, c) := by
  rw [find?, on_bind_of_ok (on_get c), on_of, h]

/-- What is done with each of some things, if that changes nothing, is done with all of
them. -/
theorem on_mapM {c : Catalogs} {f : α → Work β} {g : α → β} {as : List α}
    (h : ∀ a ∈ as, (f a).on c = (.ok (g a), c)) :
    (as.mapM f).on c = (.ok (as.map g), c) := by
  induction as with
  | nil => rfl
  | cons a as ih =>
      rw [List.mapM_cons, on_bind_of_ok (h a List.mem_cons_self),
        on_bind_of_ok (ih fun b hb => h b (List.mem_cons_of_mem a hb))]
      rfl

theorem on_filterM {c : Catalogs} {test : α → Work Bool} {p : α → Bool} {as : List α}
    (h : ∀ a ∈ as, (test a).on c = (.ok (p a), c)) :
    (as.filterM test).on c = (.ok (as.filter p), c) := by
  -- The rows that have passed are kept in reverse.
  have hfrom (passed : List α) : (as.filterAuxM test passed).on c =
      (.ok ((as.filter p).reverse ++ passed), c) := by
    induction as generalizing passed with
    | nil => rfl
    | cons a as ih =>
        rw [List.filterAuxM, on_bind_of_ok (h a List.mem_cons_self),
          ih fun b hb => h b (List.mem_cons_of_mem a hb)]
        cases ha : p a <;> simp [ha]
  rw [List.filterM, on_bind_of_ok (hfrom [])]
  simp only [List.append_nil, List.reverse_reverse]
  rfl

end Work

/-- A migrations table without rows. -/
def recordTable : Table where
  columns := [⟨"sequence", .integer .ubigint, false, none⟩,
    ⟨"version", .integer .bigint, true, none⟩,
    ⟨"dirty", .integer .utinyint, true, none⟩]
  keys := [[0]]
  primary := [0]

theorem on_declared (place : Place) (c : Catalogs) :
    (Grammar.columns.mapM (columnOf place)).on c =
      (.ok (recordTable.columns.map fun column => (column, [])), c) := by
  cbv

theorem on_constrained (place : Place) (name : String) (c : Catalogs) :
    ((constraintsOf Grammar.columns []).foldlM (Table.constrained place name)
      { columns := recordTable.columns }).on c = (.ok recordTable, c) := by
  cbv

section Create

variable {c : Catalogs} {place : Place} {path : Path}

theorem on_createTable (htarget : c.target false path = .ok place) :
    (createTable false .refuse path Grammar.columns []).on c =
      (enter .refuse place path.name (.table recordTable)).on c := by
  have hplace : (Work.of (c.target false path)).on c = (.ok place, c) := by
    rw [Work.on_of, htarget]
  have hnames : (Work.of (refuseRepeated (Grammar.columns.map (·.name)))).on c =
      (.ok (), c) := by
    cbv
  rw [createTable, Work.on_bind_of_ok (Work.on_get c),
    Work.on_bind_of_ok hplace, Work.on_bind_of_ok hnames,
    Work.on_bind_of_ok (on_declared place c)]
  exact Work.on_bind_of_ok (on_constrained place path.name c) _

theorem on_createTable_of_misplaced {fault : Fault}
    (htarget : c.target false path = .error fault) :
    (createTable false .refuse path Grammar.columns []).on c =
      (.error fault, c) := by
  rw [createTable, Work.on_bind_of_ok (Work.on_get c)]
  refine Work.on_bind_of_error ?_ _
  rw [Work.on_of, htarget]

theorem on_enter_of_free {name : String} {d : Definition}
    (h : (c.get place.temporary).find? d.kind (c.schemaName place) name = none) :
    (enter .refuse place name d).on c =
      (.ok (), c.modify place.temporary (·.insert ⟨c.schemaName place, name, d⟩)) := by
  rw [enter, Work.on_bind_of_ok (Work.on_get c)]
  simp only [h]
  rfl

theorem on_enter_of_taken {name : String} {d : Definition} {e : Entry}
    (h : (c.get place.temporary).find? d.kind (c.schemaName place) name =
      some e) :
    (enter .refuse place name d).on c = (.error (.taken d.kind name), c) := by
  rw [enter, Work.on_bind_of_ok (Work.on_get c)]
  simp only [h]
  rfl

theorem target_of_places {temporary : Bool} {places : List Place}
    (h : c.places path.dropLast = .ok places) :
    c.target temporary path =
      (places.find? (·.temporary == temporary)).elim
        (.error (.misuse "Only temporary objects are in the catalog \"temp\""))
        fun p =>
          if (c.get temporary).hasSchema p.schema then .ok p
          else .error (.missing .schema p.schema) := by
  rw [Catalogs.target, h]
  simp only [bind, Except.bind]
  cases places.find? (·.temporary == temporary) <;> rfl

/-- A table is created in a stored schema, which is there. -/
theorem places_of_target (h : c.target false path = .ok place) :
    ∃ places, c.places path.dropLast = .ok places ∧
      places.find? (·.temporary == false) = some place ∧
      place.temporary = false ∧ c.stored.hasSchema place.schema = true := by
  cases hplaces : c.places path.dropLast with
  | error fault =>
      rw [Catalogs.target, hplaces] at h
      cases h
  | ok places =>
      rw [target_of_places hplaces] at h
      cases hfind : places.find? (·.temporary == false) with
      | none =>
          rw [hfind] at h
          cases h
      | some p =>
          rw [hfind, Option.elim_some] at h
          split at h
          · next hschema =>
              cases h
              have hstored := List.find?_some hfind
              exact ⟨places, rfl, hfind, by simpa using hstored, hschema⟩
          · cases h

theorem length_le_of_target (h : c.target false path = .ok place) :
    path.length ≤ 3 := by
  obtain ⟨places, hplaces, -⟩ := places_of_target h
  have hqualifiers : path.dropLast.length ≤ 2 := by
    generalize path.dropLast = qualifiers at hplaces
    match qualifiers with
    | [] => simp
    | [_] => simp
    | [_, _] => simp
    | _ :: _ :: _ :: _ => cases hplaces
  rw [List.length_dropLast] at hqualifiers
  omega

end Create

/-- The statement for a name creates a table at a place: the path leads there, and
the last name of it is free. -/
structure CreatesAt (c : Catalogs) (table : String) (place : Place) : Prop where
  names : "" ∉ tableParts table
  target : c.target false (tableParts table) = .ok place
  free : c.stored.find? .table (c.schemaName place) (splitName table).table =
    none

def recordEntry (c : Catalogs) (table : String) (place : Place) : Entry :=
  ⟨c.schemaName place, (splitName table).table, .table recordTable⟩

theorem name_tableParts (table : String) :
    Path.name (tableParts table) = (splitName table).table := by
  simp [Path.name, tableParts]

namespace Connection

variable {c : Connection} {table : String} {place : Place}

/-- A statement without parameters that is not about transactions. -/
def perform (c : Connection) (st : Statement) :
    Except Fault Outcome × Connection :=
  if c.aborted then (.error .aborted, c)
  else match (st.execute []).on c.catalogs with
    | (.error fault, reached) =>
      (.error fault, { c with
        catalogs := c.catalogs.countedAs reached
        aborted := c.saved.isSome })
    | (.ok outcome, catalogs) => (.ok outcome, { c with catalogs })

theorem perform_of_ok {st : Statement} {outcome : Outcome}
    {catalogs : Catalogs} (haborted : c.aborted = false)
    (h : (st.execute []).on c.catalogs = (.ok outcome, catalogs)) :
    c.perform st = (.ok outcome, { c with catalogs }) := by
  rw [perform, if_neg (by simp [haborted]), h]

theorem perform_of_error {st : Statement} {fault : Fault} {reached : Catalogs}
    (h : (st.execute []).on c.catalogs = (.error fault, reached)) :
    ∃ fault' c', c.perform st = (.error fault', c') := by
  rw [perform, h]
  split <;> exact ⟨_, _, rfl⟩

def declaration (path : Path) : Statement :=
  .createTable false .refuse path Grammar.columns []

theorem execute_declaration (path : Path) (c : Connection) :
    c.execute (declaration path) 0 [] = c.perform (declaration path) := rfl

theorem runScript_createSql (hnames : "" ∉ tableParts table)
    (hlength : (tableParts table).length ≤ 8) {c c' : Connection}
    {result : Except Fault Outcome}
    (h : c.perform (declaration (tableParts table)) = (result, c')) :
    c.runScript (createSql table) = (result.map fun _ => (), c') := by
  have hread : Grammar.read? (createSql table) =
      some [(declaration (tableParts table), 0)] := by
    rw [Grammar.read?_createSql, if_pos ⟨hnames, hlength⟩, declaration]
  rw [runScript, hread]
  cases result <;> simp only [executeAll, execute_declaration, h, Except.map]

theorem on_declaration_of_ok {path : Path} {catalogs catalogs' : Catalogs}
    (h : (createTable false .refuse path Grammar.columns []).on catalogs =
      (.ok (), catalogs')) :
    ((declaration path).execute []).on catalogs = (.ok .done, catalogs') := by
  rw [declaration, Statement.execute, Work.on_bind_of_ok h]
  rfl

theorem on_declaration_of_error {path : Path} {catalogs reached : Catalogs}
    {fault : Fault}
    (h : (createTable false .refuse path Grammar.columns []).on catalogs =
      (.error fault, reached)) :
    ((declaration path).execute []).on catalogs = (.error fault, reached) := by
  rw [declaration, Statement.execute, Work.on_bind_of_error h]

/-- Where a table can be created it is, with nothing else changed. -/
theorem runScript_of_createsAt (haborted : c.aborted = false)
    (h : CreatesAt c.catalogs table place) :
    c.runScript (createSql table) =
      (.ok (), { c with
        catalogs := c.catalogs.modify false
          (·.insert (recordEntry c.catalogs table place)) }) := by
  have hlength := length_le_of_target h.target
  obtain ⟨-, -, -, hstored, -⟩ := places_of_target h.target
  have hcreate := on_createTable h.target
  rw [name_tableParts, on_enter_of_free (by
    rw [hstored]
    exact h.free), hstored] at hcreate
  exact runScript_createSql h.names (by omega)
    (perform_of_ok haborted (on_declaration_of_ok hcreate))

theorem runScript_of_taken {e : Entry} (hnames : "" ∉ tableParts table)
    (htarget : c.catalogs.target false (tableParts table) = .ok place)
    (htaken : c.catalogs.stored.find? .table (c.catalogs.schemaName place)
      (splitName table).table = some e) :
    ∃ fault c', c.runScript (createSql table) = (.error fault, c') := by
  have hlength := length_le_of_target htarget
  obtain ⟨-, -, -, hstored, -⟩ := places_of_target htarget
  have hcreate := on_createTable htarget
  rw [name_tableParts, on_enter_of_taken (by
    rw [hstored]
    exact htaken)] at hcreate
  obtain ⟨fault, c', hperform⟩ := perform_of_error (on_declaration_of_error hcreate)
  exact ⟨fault, c', runScript_createSql hnames (by omega) hperform⟩

theorem createsAt_of_runScript {c' : Connection}
    (h : c.runScript (createSql table) = (.ok (), c')) :
    c.aborted = false ∧ ∃ place, CreatesAt c.catalogs table place := by
  have hread : "" ∉ tableParts table ∧ (tableParts table).length ≤ 8 := by
    refine Decidable.byContradiction fun hread => ?_
    rw [runScript, Grammar.read?_createSql, if_neg hread] at h
    cases h
  have haborted : c.aborted = false := by
    refine Bool.eq_false_iff.2 fun haborted => ?_
    have hperform : c.perform (declaration (tableParts table)) =
        (.error .aborted, c) := by
      rw [perform, if_pos haborted]
    rw [runScript_createSql hread.1 hread.2 hperform] at h
    cases h
  refine ⟨haborted, ?_⟩
  cases htarget : c.catalogs.target false (tableParts table) with
  | error fault =>
      obtain ⟨_, _, hperform⟩ := perform_of_error
        (on_declaration_of_error (on_createTable_of_misplaced htarget))
      rw [runScript_createSql hread.1 hread.2 hperform] at h
      cases h
  | ok place =>
      cases hfind : c.catalogs.stored.find? .table
          (c.catalogs.schemaName place) (splitName table).table with
      | none => exact ⟨place, hread.1, htarget, hfind⟩
      | some e =>
          obtain ⟨_, _, htaken⟩ := runScript_of_taken hread.1 htarget hfind
          rw [htaken] at h
          cases h

end Connection

end SchemaLedger.Engine
