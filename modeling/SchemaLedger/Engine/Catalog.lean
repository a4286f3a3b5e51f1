import SchemaLedger.Engine.Fault
import SchemaLedger.Engine.Statement
import SchemaLedger.Sql.Name
/-!
# Catalogs

A catalog holds what has been created in a database. Names are compared without
regard to case and kept as they were written. Tables and views share their
names; everything else has names of its own kind. A connection sees two
catalogs, one that is stored and one that vanishes with it, and `Catalogs.find?`
says what a name stands for in them.
-/

namespace SchemaLedger.Engine

def sameName (a b : String) : Bool :=
  a.toLower == b.toLower

structure Column where
  name : String
  type : DataType
  /-- A value has to be there. -/
  required : Bool := false
  default : Option Exp := none
  deriving Inhabited

/-- Columns whose values have to occur in columns of another table of the same
schema. Columns are given by their positions. -/
structure ForeignKey where
  columns : List Nat
  parent : String
  parentColumns : List Nat

/-- A sequence or a type that a table cannot do without. -/
structure Need where
  kind : ObjectKind
  schema : String
  name : String

/-- A table with its rows, in the order in which they were inserted. -/
structure Table where
  columns : List Column
  /-- The positions of columns whose values together tell rows apart. -/
  keys : List (List Nat) := []
  primary : List Nat := []
  foreignKeys : List ForeignKey := []
  checks : List Exp := []
  needs : List Need := []
  rows : List (List Cell) := []

namespace Table

def position? (t : Table) (name : String) : Option Nat :=
  t.columns.findIdx? fun c => sameName c.name name

def positions (t : Table) (names : List String) : Except Fault (List Nat) :=
  names.mapM fun name =>
    match t.position? name with
    | some i => .ok i
    | none => .error (.columnMissing name)

end Table

inductive Definition where
  | table (t : Table)
  /-- A view with names for its first columns, and the columns that its query
  had when the view was created. -/
  | view (q : Query) (names : List String) (columns : List (String × DataType))
  /-- A sequence with the number that comes next and the one given out last. -/
  | sequence (next increment : Int) (last : Option Int)
  | type (t : DataType)
  | scalarMacro (params : List String) (body : Exp)
  | tableMacro (params : List String) (body : Query)

def Definition.kind : Definition → ObjectKind
  | table _ => .table
  | view .. => .view
  | sequence .. => .sequence
  | type _ => .type
  | scalarMacro .. => .scalarMacro
  | tableMacro .. => .tableMacro

/-- Two objects of these kinds cannot have one name. -/
def sharesNames (a b : ObjectKind) : Bool :=
  a == b || ([a, b] == [.table, .view]) || ([a, b] == [.view, .table])

structure Entry where
  schema : String
  name : String
  definition : Definition

def Entry.dependsOn (e : Entry) (kind : ObjectKind) (schema name : String) :
    Bool :=
  match e.definition with
  | .table t => t.needs.any fun n =>
      n.kind == kind && sameName n.schema schema && sameName n.name name
  | _ => false

structure Catalog where
  schemas : List String := [Sql.defaultSchema]
  entries : List Entry := []

namespace Catalog

def hasSchema (c : Catalog) (name : String) : Bool :=
  c.schemas.any (sameName name)

def isMeant (kind : ObjectKind) (schema name : String) (e : Entry) : Bool :=
  sharesNames kind e.definition.kind && sameName schema e.schema
    && sameName name e.name

def find? (c : Catalog) (kind : ObjectKind) (schema name : String) :
    Option Entry :=
  c.entries.find? (isMeant kind schema name)

def insert (c : Catalog) (e : Entry) : Catalog :=
  { c with entries := c.entries ++ [e] }

def erase (c : Catalog) (kind : ObjectKind) (schema name : String) : Catalog :=
  { c with entries := c.entries.filter fun e => !isMeant kind schema name e }

def replace (c : Catalog) (schema name : String) (d : Definition) : Catalog :=
  { c with
    entries := c.entries.map fun e =>
      if isMeant d.kind schema name e then { e with definition := d } else e }

def tables (c : Catalog) (schema : String) : List (String × Table) :=
  c.entries.filterMap fun e =>
    match e.definition with
    | .table t => if sameName schema e.schema then some (e.name, t) else none
    | _ => none

/-- The tables whose rows have to be found in a table. -/
def children (c : Catalog) (schema name : String) :
    List (String × Table × ForeignKey) :=
  (c.tables schema).flatMap fun (child, t) =>
    (t.foreignKeys.filter fun k => sameName k.parent name).map (child, t, ·)

def dependents (c : Catalog) (kind : ObjectKind) (schema name : String) :
    List Entry :=
  c.entries.filter (Entry.dependsOn · kind schema name)

/-- The catalog with the numbers that its sequences have reached in another
one. Numbers that have been given out are not given out again, even when what
they were given out for has been undone. -/
def countedAs (c reached : Catalog) : Catalog :=
  { c with
    entries := c.entries.map fun e =>
      match e.definition, reached.find? .sequence e.schema e.name with
      | .sequence .., some { definition := .sequence next step last, .. } =>
        { e with definition := .sequence next step last }
      | _, _ => e }

/-- The order in which kinds are listed: what refers to something stands
before it, and both kinds of macro together. -/
def rank : ObjectKind → Nat
  | .view => 0
  | .table => 1
  | .scalarMacro => 2
  | .tableMacro => 2
  | .sequence => 3
  | .type => 4
  | .schema => 5

def precedes (a b : CatalogObject) : Bool :=
  if rank a.kind ≠ rank b.kind then rank a.kind < rank b.kind
  else if a.schema ≠ b.schema then a.schema < b.schema
  else a.name ≤ b.name

/-- What users have created, in an order in which it can be dropped as far as
kinds decide it. -/
def objects (c : Catalog) : List CatalogObject :=
  let inSchemas : List CatalogObject :=
    c.entries.map fun e => ⟨e.schema, e.name, e.definition.kind⟩
  let schemas : List CatalogObject :=
    (c.schemas.filter (· ≠ Sql.defaultSchema)).map fun s => ⟨s, s, .schema⟩
  (inSchemas ++ schemas).mergeSort precedes

/-- There is a table or view of exactly this name. -/
def hasRelation (c : Catalog) (schema name : String) : Bool :=
  c.entries.any fun e =>
    sharesNames .table e.definition.kind && e.schema == schema && e.name == name

end Catalog

structure Place where
  temporary : Bool
  schema : String
  deriving DecidableEq, Repr

structure Catalogs where
  name : String
  stored : Catalog := {}
  temporary : Catalog := {}

namespace Catalogs

def temporaryName : String := "temp"

def get (c : Catalogs) (temporary : Bool) : Catalog :=
  if temporary then c.temporary else c.stored

def modify (c : Catalogs) (temporary : Bool) (f : Catalog → Catalog) :
    Catalogs :=
  if temporary then { c with temporary := f c.temporary }
  else { c with stored := f c.stored }

def countedAs (c reached : Catalogs) : Catalogs :=
  { c with
    stored := c.stored.countedAs reached.stored
    temporary := c.temporary.countedAs reached.temporary }

def places (c : Catalogs) : List String → Except Fault (List Place)
  | [] => .ok [⟨true, Sql.defaultSchema⟩, ⟨false, Sql.defaultSchema⟩]
  | [s] =>
    if sameName s temporaryName || sameName s c.name then
      if c.stored.hasSchema s then .error (.ambiguous s)
      else .ok [⟨sameName s temporaryName, Sql.defaultSchema⟩]
    else if sameName s Sql.defaultSchema then
      .ok [⟨true, Sql.defaultSchema⟩, ⟨false, Sql.defaultSchema⟩]
    else .ok [⟨false, s⟩]
  | [catalog, s] =>
    if sameName catalog temporaryName then .ok [⟨true, s⟩]
    else if sameName catalog c.name then .ok [⟨false, s⟩]
    else .error (.catalogMissing catalog)
  | _ => .error (.misuse "Too many qualifiers")

def find? (c : Catalogs) (kind : ObjectKind) (path : Path) :
    Except Fault (Option (Place × Entry)) := do
  let places ← c.places path.dropLast
  return places.findSome? fun p =>
    ((c.get p.temporary).find? kind p.schema (path.getLast?.getD "")).map (p, ·)

/-- The schema that something with this path is created in. -/
def target (c : Catalogs) (temporary : Bool) (path : Path) :
    Except Fault Place := do
  let places ← c.places path.dropLast
  match places.find? (·.temporary == temporary) with
  | none => .error (.misuse "Only temporary objects are in the catalog \"temp\"")
  | some p =>
    if (c.get temporary).hasSchema p.schema then .ok p
    else .error (.missing .schema p.schema)

/-- The schema as it was created. -/
def schemaName (c : Catalogs) (p : Place) : String :=
  ((c.get p.temporary).schemas.find? (sameName p.schema)).getD p.schema

end Catalogs

/-- Work on the catalogs, which may end in a fault. What has been done before
the fault is not undone. -/
abbrev Work := ExceptT Fault (StateM Catalogs)

namespace Work

def of {α : Type} (r : Except Fault α) : Work α :=
  MonadExcept.ofExcept r

def find? (kind : ObjectKind) (path : Path) : Work (Option (Place × Entry)) := do
  of ((← get).find? kind path)

def find (kind : ObjectKind) (path : Path) : Work (Place × Entry) := do
  match ← find? kind path with
  | some found => return found
  | none => throw (.missing kind (path.getLast?.getD ""))

def modify (temporary : Bool) (f : Catalog → Catalog) : Work Unit :=
  modifyThe Catalogs (·.modify temporary f)

end Work

end SchemaLedger.Engine
