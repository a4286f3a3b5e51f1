import SchemaLedger.Engine.Integrity
/-!
# Changes of rows

Inserting, updating and deleting rows. Each is done as a whole or not at all,
and its outcome is the number of rows that it touched.
-/

namespace SchemaLedger.Engine

structure TableAt where
  place : Place
  name : String
  table : Table

def TableAt.find (path : Path) : Work TableAt := do
  match ← Work.find .table path with
  | (place, { schema, name, definition := .table t }) =>
    return ⟨⟨place.temporary, schema⟩, name, t⟩
  | (_, e) => throw (.misuse (e.name ++ " is not a table"))

namespace Column

def defaultValue (c : Column) : Work Cell := do
  match c.default with
  | none => return .null
  | some e => Work.of (castTo c.type (← (← Term.ofConstant e).eval [] []))

end Column

inductive Given where
  | term (e : Term)
  | default

def Given.ofExp (s : Scope) : Exp → Work Given
  | .default => return .default
  | e => return .term (← Term.ofCondition s e)

def Given.value (params row : List Cell) (c : Column) : Given → Work Cell
  | default => c.defaultValue
  | term e => do Work.of (castTo c.type (← e.eval params row))

/-- A full row of a table, from values for columns at some positions. Other
columns have their defaults. -/
def Table.complete (t : Table) (values : List (Nat × Work Cell)) :
    Work (List Cell) :=
  t.columns.zipIdx.mapM fun (c, i) =>
    match values.find? fun v => v.1 == i with
    | some (_, value) => value
    | none => c.defaultValue

def Table.targets (t : Table) (columns : List String) : Work (List Nat) := do
  if columns.isEmpty then return List.range t.columns.length
  let targets ← Work.of (t.positions columns)
  if targets.eraseDups.length ≠ targets.length then
    throw (.misuse "A column is named twice")
  return targets

def Table.rowOf (t : Table) (targets : List Nat) (values : List (Work Cell)) :
    Work (List Cell) := do
  if values.length ≠ targets.length then
    throw (.misuse (toString targets.length ++ " columns, but "
      ++ toString values.length ++ " values"))
  t.complete (targets.zip values)

/-- The rows that a query yields for a table. Rows that are written out may
leave values to the defaults. -/
def Table.newRows (t : Table) (targets : List Nat) (params : List Cell)
    (source : Query) : Work (List (List Cell)) := do
  let columns := targets.map fun i => t.columns[i]?.getD default
  match source with
  | .values rows =>
    let bound ← rows.mapM fun row => row.mapM (Given.ofExp {})
    bound.mapM fun row =>
      t.rowOf targets
        (if row.length = columns.length then
          (row.zip columns).map fun (g, c) => g.value params [] c
        else row.map fun _ => return .null)
  | q =>
    let r ← q.run params
    if r.header.length ≠ targets.length then
      throw (.misuse (toString targets.length ++ " columns, but "
        ++ toString r.header.length ++ " values"))
    r.rows.mapM fun row =>
      t.rowOf targets ((row.zip columns).map fun (cell, c) =>
        Work.of (castTo c.type cell))

def insertRows (path : Path) (columns : List String) (source : Query)
    (params : List Cell) : Work Nat := do
  let { place, name, table } ← TableAt.find path
  let added ← table.newRows (← table.targets columns) params source
  accept place name table ⟨table.rows, added⟩ (table.rows ++ added)
  return added.length

def insertDefaultRow (path : Path) : Work Nat := do
  let { place, name, table } ← TableAt.find path
  let row ← table.complete []
  accept place name table ⟨table.rows, [row]⟩ (table.rows ++ [row])
  return 1

def chosen (condition : Option Term) (params row : List Cell) : Work Bool := do
  match condition with
  | none => return true
  | some e => return (← Work.of (truth? (← e.eval params row))) = some true

/-- Update rows. A row whose keys are set is taken out and put in again, so it
moves to the end. -/
def updateRows (path : Path) (changes : List (String × Exp))
    (condition : Option Exp) (params : List Cell) : Work Nat := do
  let { place, name, table } ← TableAt.find path
  let s := table.scope [place.schema, name]
  let targets ← table.targets (changes.map Prod.fst)
  let given ← changes.mapM fun (_, e) => Given.ofExp s e
  let condition ← condition.mapM (Term.ofCondition s)
  let marked ← table.rows.mapM fun row => do
    if ← chosen condition params row then
      let updated ← table.columns.zipIdx.mapM fun (c, i) =>
        match (targets.zip given).lookup i with
        | some g => g.value params row c
        | none => return row[i]?.getD .null
      return (updated, true)
    else return (row, false)
  let kept := (marked.filter (!·.2)).map Prod.fst
  let added := (marked.filter (·.2)).map Prod.fst
  let keyed := table.keys.flatten ++ (table.foreignKeys.map (·.columns)).flatten
  let rows :=
    if targets.any keyed.contains then kept ++ added
    else marked.map Prod.fst
  accept place name table ⟨kept, added⟩ rows
  return added.length

def deleteRows (path : Path) (condition : Option Exp) (params : List Cell) :
    Work Nat := do
  let { place, name, table } ← TableAt.find path
  let condition ← condition.mapM
    (Term.ofCondition (table.scope [place.schema, name]))
  let kept ← table.rows.filterM fun row => do
    return !(← chosen condition params row)
  accept place name table ⟨kept, []⟩ kept
  return table.rows.length - kept.length

end SchemaLedger.Engine
