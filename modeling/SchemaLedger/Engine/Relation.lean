import SchemaLedger.Engine.Binding
/-!
# Relations

A relation is what a query yields: rows under a header. `Query.rows` evaluates a
query from the inside out: where the rows come from, which of them count, what
is selected, in which order and how many.
-/

namespace SchemaLedger.Engine

structure Relation where
  header : Header := []
  rows : List (List Cell) := []

namespace Relation

def headerOf (qualifier : List String) (columns : List (String × DataType)) :
    Header :=
  columns.map fun (name, t) => ⟨qualifier, name, t⟩

def named (r : Relation) : Option String → Relation
  | none => r
  | some name =>
    { r with header := r.header.map fun c => { c with qualifier := [name] } }

def columns (r : Relation) : List (String × DataType) :=
  r.header.map fun c => (c.name, c.type)

def renamed : List String → List (String × DataType) → List (String × DataType)
  | name :: names, (_, t) :: columns => (name, t) :: renamed names columns
  | _, columns => columns

/-- Numbers from one on up to another, the latter left out. -/
def range (first bound : Int) : Relation where
  header := [⟨["range"], "range", .integer .bigint⟩]
  rows := (List.range (bound - first).toNat).map fun i =>
    [.integer .bigint (first + (i : Nat))]

def listingColumns : List String :=
  ["table_catalog", "table_schema", "table_name", "table_type"]

def listed? (catalog tableType : String) (e : Entry) : Option (List Cell) :=
  match e.definition with
  | .table _ => some ([catalog, e.schema, e.name, tableType].map .text)
  | .view .. => some ([catalog, e.schema, e.name, "VIEW"].map .text)
  | _ => none

/-- The tables and views that users have created: `information_schema.tables`, as
far as it says where they are and of which type. -/
def listing (c : Catalogs) : Relation where
  header := headerOf ["system", "information_schema", "tables"]
    (listingColumns.map fun name => (name, .varchar))
  rows := c.stored.entries.filterMap (listed? c.name "BASE TABLE")
    ++ c.temporary.entries.filterMap
      (listed? Catalogs.temporaryName "LOCAL TEMPORARY")

end Relation

def Exp.label : Exp → String
  | .column path => path.getLast?.getD ""
  | .constant c => Cast.shown c
  | .call path _ => path.getLast?.getD ""
  | .countRows => "count_star()"
  | .cast _ e _ => label e
  | _ => "expression"

def typeOfNothing : DataType := .integer .integer

namespace Selection

structure Output where
  name : String
  term : Term

def outputs (s : Scope) : Item → Work (List Output)
  | .all =>
    if s.columns.isEmpty then
      throw (.misuse "There is nothing to select all columns from")
    else
      return s.columns.zipIdx.map fun (c, i) => ⟨c.name, .column i c.type⟩
  | .value e name => do
    return [⟨name.getD e.label, ← e.bind depthLimit s⟩]

/-- A key to order by: the number or the name of something selected, or an
expression about the rows selected from. -/
def keyTerm (s : Scope) (selected : List Output) (e : Exp) : Work Term := do
  match e with
  | .constant (.integer _ n) =>
    match if 1 ≤ n then selected[n.toNat - 1]? else none with
    | some o => return o.term
    | none => throw (.misuse "ORDER term out of range")
  | .column [name] =>
    match selected.find? fun o => sameName o.name name with
    | some o => return o.term
    | none => e.bind depthLimit s
  | e => e.bind depthLimit s

/-- Keys are in order, absent ones standing last unless they are to stand
first. -/
def inOrder : List OrderKey → List Cell → List Cell → Bool
  | k :: ks, a :: as, b :: bs =>
    if a == .null && b == .null then inOrder ks as bs
    else if a == .null then k.nullsFirst
    else if b == .null then !k.nullsFirst
    else
      match a.compare b with
      | .eq => inOrder ks as bs
      | .lt => !k.descending
      | .gt => k.descending
  | _, _, _ => true

def amount? (params : List Cell) : Option Exp → Work (Option Nat)
  | none => return none
  | some e => do
    let c ← (← Term.ofConstant e).eval params []
    match ← Work.of (castTo (.integer .bigint) c) with
    | .integer _ n =>
      if n < 0 then throw (.misuse "LIMIT and OFFSET cannot be negative")
      else return some n.toNat
    | _ => return none

/-- Evaluate terms at every row, or once where aggregates are among them. -/
def evalRows (params : List Cell) (rows : List (List Cell))
    (terms : List Term) : Work (List (List Cell)) := do
  if terms.any Term.hasAggregate then
    let settled ← Term.settledAll params rows terms
    if settled.any Term.hasColumn then
      throw (.misuse "A column must appear in an aggregate")
    return [← Term.evalAll params [] settled]
  else rows.mapM fun row => Term.evalAll params row terms

def filter (params : List Cell) (condition : Option Term)
    (rows : List (List Cell)) : Work (List (List Cell)) := do
  match condition with
  | none => return rows
  | some e => rows.filterM fun row => do
    return (← Work.of (truth? (← e.eval params row))) = some true

def run (params : List Cell) (given : List (String × Term)) (r : Relation)
    (distinct : Bool) (items : List Item) (condition : Option Exp)
    (order : List OrderKey) (limit offset : Option Exp) : Work Relation := do
  let s : Scope := ⟨r.header, given⟩
  let condition ← condition.mapM (Term.ofCondition s)
  let selected := (← items.mapM (outputs s)).flatten
  let keys ← order.mapM fun k => keyTerm s selected k.key
  let limit ← amount? params limit
  let offset ← amount? params offset
  let rows ← filter params condition r.rows
  let evaluated ← evalRows params rows (selected.map (·.term) ++ keys)
  let parts := evaluated.map fun row =>
    (row.take selected.length, row.drop selected.length)
  let ordered := (if order.isEmpty then parts
    else parts.mergeSort fun a b => inOrder order a.2 b.2).map Prod.fst
  let rows := (if distinct then ordered.eraseDups else ordered).drop
    (offset.getD 0)
  return {
    header := selected.map fun o =>
      ⟨[], o.name, o.term.type?.getD typeOfNothing⟩
    rows := match limit with
      | some n => rows.take n
      | none => rows }

end Selection

def Relation.ofValues (params : List Cell) (given : List (String × Term))
    (rows : List (List Exp)) : Work Relation := do
  let terms ← rows.mapM fun row => row.mapM fun e => do
    let e ← e.bind depthLimit { given }
    if e.hasAggregate then throw (.misuse "No aggregate can stand here")
    return e
  let width := (rows.headD []).length
  if terms.any (·.length ≠ width) then
    throw (.misuse "VALUES lists must all be the same length")
  let header := (terms.headD []).zipIdx.map fun (e, i) =>
    (⟨[], "col" ++ toString i, e.type?.getD typeOfNothing⟩ : HeaderColumn)
  return { header, rows := ← terms.mapM (Term.evalAll params []) }

def integerArgument (c : Cell) : Work Int := do
  match ← Work.of (castTo (.integer .bigint) c) with
  | .integer _ n => return n
  | _ => return 0

mutual

/-- The rows of a query, views and macros in it being followed to a limited
depth. -/
def Query.rows : Nat → List Cell → List (String × Term) → Query →
    Work Relation
  | 0, _, _, _ => throw (.misuse "Views are nested too deeply")
  | depth + 1, params, given, q => do
    match q with
    | .values rows => Relation.ofValues params given rows
    | .select distinct items origin condition order limit offset =>
      let r ← Origin.rows depth params given origin
      Selection.run params given r distinct items condition order limit offset

def Origin.rows : Nat → List Cell → List (String × Term) → Origin →
    Work Relation
  | 0, _, _, _ => throw (.misuse "Views are nested too deeply")
  | depth + 1, params, given, o => do
    match o with
    | .nothing => return { rows := [[]] }
    | .nested q label => return (← Query.rows depth params given q).named label
    | .relation path label =>
      match ← Work.find? .table path with
      | none =>
        if path.map String.toLower = ["information_schema", "tables"] then
          return (Relation.listing (← get)).named label
        else throw (.missing .table (path.getLast?.getD ""))
      | some (place, e) =>
        let stored := (← get).name
        let catalog :=
          if place.temporary then Catalogs.temporaryName else stored
        let qualifier := [catalog, e.schema, e.name]
        match e.definition with
        | .table t =>
          let header := Relation.headerOf qualifier
            (t.columns.map fun c => (c.name, c.type))
          return (Relation.mk header t.rows).named label
        | .view q names columns =>
          let r ← Query.rows depth [] [] q
          if r.columns != columns then
            throw (.misuse "Contents of view were altered")
          let header := Relation.headerOf qualifier
            (Relation.renamed names columns)
          return (Relation.mk header r.rows).named label
        | _ => throw (.missing .table e.name)
    | .call path args label =>
      let args ← args.mapM fun e => do
        let e ← e.bind depthLimit { given }
        e.eval params []
      match ← Work.find? .tableMacro path with
      | some (_, { definition := .tableMacro names body, .. }) =>
        if names.length ≠ args.length then
          throw (.misuse "The macro does not support these arguments")
        let r ← Query.rows depth params (names.zip (args.map .constant)) body
        return r.named label
      | _ =>
        match path.map String.toLower, args with
        | ["range"], [bound] =>
          return (Relation.range 0 (← integerArgument bound)).named label
        | ["range"], [first, bound] =>
          return (Relation.range (← integerArgument first)
            (← integerArgument bound)).named label
        | _, _ => throw (.functionMissing (path.getLast?.getD ""))

end

def nestingLimit : Nat := 1000

def Query.run (q : Query) (params : List Cell) : Work Relation :=
  q.rows nestingLimit params []

end SchemaLedger.Engine
