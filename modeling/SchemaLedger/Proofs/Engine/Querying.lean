import SchemaLedger.Proofs.Engine.Creation
import SchemaLedger.Proofs.Version.Opening
/-!
# Querying a migrations table

The engine answers the query for the greatest key of a migrations table with a
single cell, which is a key or nothing, as the version store expects. The path has
to lead to the table, and `max` must not have been given another meaning.
-/

namespace SchemaLedger.Engine

open Sql VersionStore

theorem Builtin.extremum_eq_null_or_mem (wins : Ordering) (cells : List Cell) :
    extremum wins cells = .null ∨ extremum wins cells ∈ cells := by
  have hfold : ∀ best, (best = .null ∨ best ∈ cells) →
      ∀ rest : List Cell, rest ⊆ cells →
        let winner := rest.foldl (fun best c =>
          if c == .null then best
          else if best == .null || c.compare best == wins then c
          else best) best
        winner = .null ∨ winner ∈ cells := by
    intro best hbest rest
    induction rest generalizing best with
    | nil => exact fun _ => hbest
    | cons c rest ih =>
        intro hrest
        obtain ⟨hc, hrest⟩ := List.cons_subset.1 hrest
        refine ih _ ?_ hrest
        dsimp only
        split
        · exact hbest
        · split
          · exact Or.inr hc
          · exact hbest
  exact hfold .null (Or.inl rfl) cells (List.Subset.refl cells)

structure KeepsRecords (t : Table) : Prop where
  columns : t.columns = recordTable.columns
  keys : ∀ row ∈ t.rows, ∃ n, row[0]? = some (.integer .ubigint n)

theorem keepsRecords_recordTable : KeepsRecords recordTable where
  columns := rfl
  keys := nofun

/-- The columns of a migrations table, with names that can stand in front of
them. -/
def recordHeader (qualifier : List String) : Header :=
  Relation.headerOf qualifier
    (recordTable.columns.map fun column => (column.name, column.type))

def firstCells (rows : List (List Cell)) : List Cell :=
  rows.map fun row => row[0]?.getD .null

theorem KeepsRecords.of_mem_firstCells {t : Table} (h : KeepsRecords t)
    {key : Cell} (hkey : key ∈ firstCells t.rows) :
    ∃ n, key = .integer .ubigint n := by
  obtain ⟨row, hrow, rfl⟩ := List.mem_map.1 hkey
  obtain ⟨n, hn⟩ := h.keys row hrow
  exact ⟨n, by rw [hn, Option.getD_some]⟩

variable {c : Catalogs}

theorem on_rows_of_keepsRecords {path : Path} {place : Place} {e : Entry}
    {t : Table} (hfind : c.find? .table path = .ok (some (place, e)))
    (he : e.definition = .table t) (ht : KeepsRecords t) (depth : Nat) :
    ∃ qualifier, (Origin.rows (depth + 1) [] [] (.relation path none)).on c =
      (.ok ⟨recordHeader qualifier, t.rows⟩, c) := by
  refine ⟨[if place.temporary then Catalogs.temporaryName else c.name, e.schema,
    e.name], ?_⟩
  rw [Origin.rows, Work.on_bind_of_ok (Work.on_find? hfind)]
  dsimp only
  rw [Work.on_bind_of_ok (Work.on_get c)]
  simp only [he, ht.columns]
  rfl

def maxKeyTerm : Term :=
  .aggregate .max (.column 0 (.integer .ubigint))

/-- An aggregate makes one cell of those that its term has at the rows. -/
theorem on_evalRows_aggregate {f : Aggregate} {e : Term} {rows : List (List Cell)}
    {cells : List Cell} {cell : Cell}
    (hcells : (rows.mapM fun row => e.eval [] row).on c = (.ok cells, c))
    (hcell : f.apply cells = .ok cell) :
    (Selection.evalRows [] rows [.aggregate f e]).on c = (.ok [[cell]], c) := by
  have hsettled : (Term.settled [] rows (.aggregate f e)).on c =
      (.ok (.constant cell), c) := by
    rw [Term.settled, Work.on_bind_of_ok hcells,
      Work.on_bind_of_ok (by rw [Work.on_of, hcell])]
    rfl
  have hall : (Term.settledAll [] rows [.aggregate f e]).on c =
      (.ok [.constant cell], c) := by
    rw [Term.settledAll, Work.on_bind_of_ok hsettled]
    rfl
  have haggregate : [Term.aggregate f e].any Term.hasAggregate = true := by
    simp [Term.hasAggregate, Term.parts]
  rw [Selection.evalRows, if_pos haggregate, Work.on_bind_of_ok hall]
  rfl

theorem on_evalRows_maxKeyTerm (rows : List (List Cell)) :
    ∃ key, (key = .null ∨ key ∈ firstCells rows) ∧
      (Selection.evalRows [] rows [maxKeyTerm]).on c = (.ok [[key]], c) := by
  obtain ⟨key, hkey⟩ : ∃ key, Aggregate.max.apply (firstCells rows) = .ok key :=
    ⟨_, rfl⟩
  have hmem : key = .null ∨ key ∈ firstCells rows := by
    have hmax := Builtin.extremum_eq_null_or_mem .gt
      ((firstCells rows).filter (· != .null))
    rw [Aggregate.apply] at hkey
    cases hkey
    exact hmax.imp_right fun h => (List.mem_filter.1 h).1
  have hcells : (rows.mapM fun row =>
      Term.eval [] row (.column 0 (.integer .ubigint))).on c =
        (.ok (firstCells rows), c) :=
    Work.on_mapM fun row _ => by
      rw [Term.eval]
      rfl
  exact ⟨key, hmem, on_evalRows_aggregate hcells hkey⟩

section Selection

variable (hmax : c.find? .scalarMacro ["max"] = .ok none)
  (qualifier : List String)

include hmax

theorem on_bind_maxKey :
    ((Exp.call ["max"] [.column ["sequence"]]).bind depthLimit
      ⟨recordHeader qualifier, []⟩).on c = (.ok maxKeyTerm, c) := by
  have hargs : ([Exp.column ["sequence"]].mapM
      (Exp.bind 999 ⟨recordHeader qualifier, []⟩)).on c =
        (.ok [.column 0 (.integer .ubigint)], c) := by
    cbv
  have hcall : (boundCall ["max"] [.column 0 (.integer .ubigint)]).on c =
      (.ok maxKeyTerm, c) := by
    cbv
  rw [depthLimit, Exp.bind, Work.on_bind_of_ok hargs,
    Work.on_bind_of_ok (Work.on_find? hmax)]
  exact hcall

theorem on_outputs_maxKey :
    ([Item.value (.call ["max"] [.column ["sequence"]]) none].mapM
      (Selection.outputs ⟨recordHeader qualifier, []⟩)).on c =
        (.ok [[⟨"max", maxKeyTerm⟩]], c) := by
  have hout : (Selection.outputs ⟨recordHeader qualifier, []⟩
      (.value (.call ["max"] [.column ["sequence"]]) none)).on c =
        (.ok [⟨"max", maxKeyTerm⟩], c) := by
    rw [Selection.outputs, Work.on_bind_of_ok (on_bind_maxKey hmax qualifier)]
    rfl
  rw [List.mapM_cons, Work.on_bind_of_ok hout]
  rfl

theorem on_select_maxKey (rows : List (List Cell)) :
    ∃ key, (key = .null ∨ key ∈ firstCells rows) ∧
      (Selection.run [] [] ⟨recordHeader qualifier, rows⟩ false
        [.value (.call ["max"] [.column ["sequence"]]) none] none [] none
          none).on c =
        (.ok ⟨[⟨[], "max", .integer .ubigint⟩], [[key]]⟩, c) := by
  obtain ⟨key, hkey, hrows⟩ := on_evalRows_maxKeyTerm (c := c) rows
  have hcondition : ((none : Option Exp).mapM
      (Term.ofCondition ⟨recordHeader qualifier, []⟩)).on c = (.ok none, c) := rfl
  refine ⟨key, hkey, ?_⟩
  rw [Selection.run, Work.on_bind_of_ok hcondition,
    Work.on_bind_of_ok (on_outputs_maxKey hmax qualifier)]
  -- Without an order, a limit and a condition, the rows are evaluated next.
  change (Selection.evalRows [] rows [maxKeyTerm] >>= _).on c = _
  rw [Work.on_bind_of_ok hrows]
  cbv

end Selection

/-- The greatest key is one of the keys, or nothing. -/
theorem on_run_maxKeyQuery {path : Path} {place : Place} {e : Entry} {t : Table}
    (hfind : c.find? .table path = .ok (some (place, e)))
    (he : e.definition = .table t) (ht : KeepsRecords t)
    (hmax : c.find? .scalarMacro ["max"] = .ok none) :
    ∃ key, (key = .null ∨ key ∈ firstCells t.rows) ∧
      ((Grammar.maxKeyQuery path).run []).on c =
        (.ok ⟨[⟨[], "max", .integer .ubigint⟩], [[key]]⟩, c) := by
  obtain ⟨qualifier, hrows⟩ := on_rows_of_keepsRecords hfind he ht 998
  obtain ⟨key, hkey, hselect⟩ := on_select_maxKey hmax qualifier t.rows
  refine ⟨key, hkey, ?_⟩
  rw [Query.run, Grammar.maxKeyQuery, nestingLimit, Query.rows,
    Work.on_bind_of_ok hrows]
  exact hselect

theorem KeepsRecords.isKeyAnswer {t : Table} (h : KeepsRecords t) {key : Cell}
    (hkey : key = .null ∨ key ∈ firstCells t.rows) :
    IsKeyAnswer [[key.toValue]] := by
  obtain rfl | hmem := hkey
  · exact Or.inl rfl
  · obtain ⟨n, rfl⟩ := h.of_mem_firstCells hmem
    exact Or.inr ⟨n.toNat.toUInt64, rfl⟩

/-- The query for the greatest key is answered with one and changes nothing. -/
theorem Connection.runLast_maxKeySql {c : Connection}
    {table schema name : String} (hparts : tableParts table = [schema, name])
    (hnames : "" ∉ tableParts table) (haborted : c.aborted = false)
    {place : Place} {e : Entry} {t : Table}
    (hfind : c.catalogs.find? .table [schema, name] = .ok (some (place, e)))
    (he : e.definition = .table t) (ht : KeepsRecords t)
    (hmax : c.catalogs.find? .scalarMacro ["max"] = .ok none) :
    ∃ outcome, c.runLast (maxKeySql table) [] = (.ok outcome, c) ∧
      IsKeyAnswer outcome.shown := by
  obtain ⟨key, hkey, hrun⟩ := on_run_maxKeyQuery hfind he ht hmax
  refine ⟨.rows ⟨[⟨[], "max", .integer .ubigint⟩], [[key]]⟩, ?_,
    ht.isKeyAnswer hkey⟩
  have hquery : (Statement.execute [] (.query
      (Grammar.maxKeyQuery [schema, name]))).on c.catalogs =
        (.ok (.rows ⟨[⟨[], "max", .integer .ubigint⟩], [[key]]⟩),
          c.catalogs) := by
    rw [Statement.execute, map_eq_pure_bind, Work.on_bind_of_ok hrun]
    rfl
  rw [runLast, Grammar.read?_maxKeySql hparts hnames]
  exact perform_of_ok haborted hquery

end SchemaLedger.Engine
