import SchemaLedger.Engine.Relation
/-!
# Integrity

The conditions on the rows of a table: values have to be there, keys tell rows
apart, checks hold, and what refers to another table is found there. A change
is admitted when the rows satisfy them afterwards.
-/

namespace SchemaLedger.Engine

/-- A change of the rows of a table: rows that stay, and rows that come. Rows
that go are in neither. -/
structure RowChange where
  kept : List (List Cell) := []
  added : List (List Cell) := []

namespace Table

def cellsAt (positions : List Nat) (row : List Cell) : List Cell :=
  positions.map fun i => row[i]?.getD .null

/-- The cells at the given positions, of every row in which they are all
there. -/
def tuples (positions : List Nat) (rows : List (List Cell)) :
    List (List Cell) :=
  (rows.map (cellsAt positions)).filter fun cells => !cells.contains .null

def checkRequired (t : Table) (row : List Cell) : Except Fault Unit :=
  (t.columns.zipIdx).forM fun (c, i) =>
    if (c.required || t.primary.contains i) && row[i]?.getD .null == .null then
      .error (.constraint ("NOT NULL constraint failed: " ++ c.name))
    else .ok ()

def checkDistinct (old : List (List Cell)) :
    List (List Cell) → Except Fault Unit
  | [] => .ok ()
  | cells :: rest =>
    if old.contains cells || rest.contains cells then
      .error (.constraint ("Duplicate key \""
        ++ ", ".intercalate (cells.map Cast.shown)
        ++ "\" violates primary key or unique constraint"))
    else checkDistinct old rest

def checkKeys (t : Table) (change : RowChange) : Except Fault Unit :=
  t.keys.forM fun key =>
    checkDistinct (tuples key change.kept) (tuples key change.added)

def checkFound (child : List (List Cell)) (parent : List (List Cell)) :
    Except Fault Unit :=
  child.forM fun cells =>
    if parent.contains cells then .ok ()
    else
      .error (.constraint ("Violates foreign key constraint because key \""
        ++ ", ".intercalate (cells.map Cast.shown)
        ++ "\" does not exist in the referenced table"))

def scope (t : Table) (qualifier : List String) : Scope where
  columns := Relation.headerOf qualifier
    (t.columns.map fun c => (c.name, c.type))

/-- No check is known to fail at any row. -/
def checkChecks (t : Table) (rows : List (List Cell)) : Work Unit := do
  for check in t.checks do
    let e ← Term.ofCondition (t.scope []) check
    for row in rows do
      if (← Work.of (truth? (← e.eval [] row))) = some false then
        throw (.constraint "CHECK constraint failed")

end Table

/-- Put a change of a table's rows into effect, if the rows satisfy every
condition then. Rows that have come stand last. -/
def accept (place : Place) (name : String) (t : Table) (change : RowChange)
    (rows : List (List Cell)) : Work Unit := do
  for row in change.added do
    Work.of (t.checkRequired row)
  t.checkChecks change.added
  Work.of (t.checkKeys change)
  let catalog := (← get).get place.temporary
  for k in t.foreignKeys do
    let parentRows :=
      if sameName k.parent name then rows
      else
        match catalog.find? .table place.schema k.parent with
        | some { definition := .table parent, .. } => parent.rows
        | _ => []
    Work.of (Table.checkFound (Table.tuples k.columns change.added)
      (Table.tuples k.parentColumns parentRows))
  for (child, c, k) in catalog.children place.schema name do
    let childRows := if sameName child name then rows else c.rows
    Work.of (Table.checkFound (Table.tuples k.columns childRows)
      (Table.tuples k.parentColumns rows))
  Work.modify place.temporary fun c =>
    c.replace place.schema name (.table { t with rows })

end SchemaLedger.Engine
