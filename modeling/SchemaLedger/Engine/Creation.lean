import SchemaLedger.Engine.Change
/-!
# Creating, changing and dropping objects

A name can be taken only once among the objects that share their names, and an
object stays as long as something else cannot do without it: a table that
another one refers to, a sequence or a type that a table uses, and a schema
with something in it.
-/

namespace SchemaLedger.Engine

def Path.name (path : Path) : String :=
  path.getLast?.getD ""

def refuseReferenced (place : Place) (name : String) : Work Unit := do
  let children := ((← get).get place.temporary).children place.schema name
  if children.any fun (child, _) => !sameName child name then
    throw (.inUse name)

/-- Take an object out of its catalog, and with it, if that is wanted, the
tables that cannot do without it. -/
def dropEntry (place : Place) (e : Entry) (cascade : Bool) : Work Unit := do
  let kind := e.definition.kind
  if kind = .table then refuseReferenced place e.name
  let dependents :=
    ((← get).get place.temporary).dependents kind e.schema e.name
  if !cascade && !dependents.isEmpty then throw (.inUse e.name)
  for d in dependents do
    refuseReferenced ⟨place.temporary, d.schema⟩ d.name
    Work.modify place.temporary (·.erase d.definition.kind d.schema d.name)
  Work.modify place.temporary (·.erase kind e.schema e.name)

/-- Enter an object under a name, if the name is free or something may be done
about that. -/
def enter (conflict : OnConflict) (place : Place) (name : String)
    (d : Definition) : Work Unit := do
  let catalogs ← get
  let schema := catalogs.schemaName place
  match (catalogs.get place.temporary).find? d.kind schema name, conflict with
  | none, _ => Work.modify place.temporary (·.insert ⟨schema, name, d⟩)
  | some _, .keep => return ()
  | some _, .refuse => throw (.taken d.kind name)
  | some e, .replace =>
    if e.definition.kind ≠ d.kind then
      throw (.otherKind e.name e.definition.kind d.kind)
    dropEntry place e false
    Work.modify place.temporary (·.insert ⟨schema, name, d⟩)

def needsOf (place : Place) (c : ColumnDef) (default : Option Term) :
    Work (List Need) := do
  let types ← c.type.created.mapM fun path => Work.find .type path
  let typeNeeds := types.filterMap fun (p, e) =>
    if p.temporary == place.temporary then
      some (⟨.type, e.schema, e.name⟩ : Need)
    else none
  let sequenceNeeds := ((default.map Term.sequences).getD []).filterMap
    fun (p, name) =>
      if p.temporary == place.temporary then
        some (⟨.sequence, p.schema, name⟩ : Need)
      else none
  return typeNeeds ++ sequenceNeeds

def columnOf (place : Place) (c : ColumnDef) : Work (Column × List Need) := do
  let type ← c.type.resolve
  let default ← c.default.mapM Term.ofConstant
  return (⟨c.name, type, c.notNull, c.default⟩, ← needsOf place c default)

def refuseRepeated : List String → Except Fault Unit
  | [] => .ok ()
  | name :: rest =>
    if rest.any (sameName name) then .error (.columnTaken name)
    else refuseRepeated rest

/-- The table that rows of a table refer to: the table itself, one of the same
schema, or else the one that the path stands for. -/
def parentOf (place : Place) (name : String) (t : Table) (path : Path) :
    Work (String × Table) := do
  let catalog := (← get).get place.temporary
  let near? := if path.length = 1 then
    catalog.find? .table place.schema path.name else none
  if path.length = 1 && sameName path.name name then return (name, t)
  else
    match near? with
    | some { name := parent, definition := .table p, .. } => return (parent, p)
    | _ =>
      let found ← TableAt.find path
      if found.place.temporary == place.temporary
          && sameName found.place.schema place.schema then
        return (found.name, found.table)
      else
        throw (.misuse "Foreign keys across schemas are not supported")

/-- A foreign key. The columns that are referred to have to be a key. -/
def foreignKeyOf (place : Place) (name : String) (t : Table)
    (columns : List String) (path : Path) (parentColumns : List String) :
    Work ForeignKey := do
  let (parentName, parent) ← parentOf place name t path
  let columns ← Work.of (t.positions columns)
  let referred ←
    if parentColumns.isEmpty then pure parent.primary
    else Work.of (parent.positions parentColumns)
  let isKey := parent.keys.any fun key =>
    key.all referred.contains && referred.all key.contains
  if !isKey || referred.length ≠ columns.length then
    throw (.misuse "The referenced columns are no primary or unique key")
  let types (t : Table) (positions : List Nat) : List DataType :=
    positions.map fun i => (t.columns[i]?.getD default).type
  if types t columns != types parent referred then
    throw (.misuse "The types of the foreign key do not match")
  return ⟨columns, parentName, referred⟩

def constraintsOf (columns : List ColumnDef) (constraints : List Constraint) :
    List Constraint :=
  (columns.map fun c =>
    (if c.key then [.key [c.name]] else [])
      ++ (if c.unique then [.unique [c.name]] else [])
      ++ (match c.references with
        | some (parent, names) => [.foreignKey [c.name] parent names]
        | none => [])).flatten
    ++ constraints

def Table.constrained (place : Place) (name : String) (t : Table) :
    Constraint → Work Table
  | .key names => do
    if !t.primary.isEmpty then
      throw (.misuse "A table can have one primary key only")
    let key ← Work.of (t.positions names)
    return { t with keys := t.keys ++ [key], primary := key }
  | .unique names => do
    return { t with keys := t.keys ++ [← Work.of (t.positions names)] }
  | .foreignKey names parent parentNames => do
    let k ← foreignKeyOf place name t names parent parentNames
    return { t with foreignKeys := t.foreignKeys ++ [k] }
  | .check e => do
    let _ ← Term.ofCondition (t.scope [name]) e
    return { t with checks := t.checks ++ [e] }

def createTable (temporary : Bool) (conflict : OnConflict) (path : Path)
    (columns : List ColumnDef) (constraints : List Constraint) :
    Work Unit := do
  let place ← Work.of ((← get).target temporary path)
  Work.of (refuseRepeated (columns.map (·.name)))
  let declared ← columns.mapM (columnOf place)
  let bare : Table :=
    { columns := declared.map Prod.fst
      needs := (declared.map Prod.snd).flatten }
  let table ← (constraintsOf columns constraints).foldlM
    (Table.constrained place path.name) bare
  enter conflict place path.name (.table table)

def createTableAs (temporary : Bool) (conflict : OnConflict) (path : Path)
    (q : Query) (params : List Cell) : Work Nat := do
  let place ← Work.of ((← get).target temporary path)
  let r ← q.run params
  let exists? := ((← get).get place.temporary).find? .table place.schema
    path.name
  if conflict = .keep && exists?.isSome then return 0
  Work.of (refuseRepeated (r.header.map (·.name)))
  enter conflict place path.name (.table
    { columns := r.columns.map fun (name, t) => ⟨name, t, false, none⟩
      rows := r.rows })
  return r.rows.length

def createView (temporary : Bool) (conflict : OnConflict) (path : Path)
    (names : List String) (q : Query) : Work Unit := do
  let place ← Work.of ((← get).target temporary path)
  let r ← q.run []
  if r.header.length < names.length then
    throw (.misuse "More names than columns in the view")
  enter conflict place path.name (.view q names r.columns)

def createSchema (conflict : OnConflict) (path : Path) : Work Unit := do
  let catalogs ← get
  match path with
  | [name] => create name
  | [catalog, name] =>
    if sameName catalog catalogs.name then create name
    else throw (.catalogMissing catalog)
  | _ => throw (.misuse "Too many qualifiers")
where
  create (name : String) : Work Unit := do
    if (← get).stored.hasSchema name then
      if conflict = .keep then return ()
      else throw (.taken .schema name)
    else
      Work.modify false fun c => { c with schemas := c.schemas ++ [name] }

def createOther (temporary : Bool) (conflict : OnConflict) (path : Path)
    (d : Definition) : Work Unit := do
  let place ← Work.of ((← get).target temporary path)
  enter conflict place path.name d

/-- The columns behind a dropped one move up. -/
def movedUp (dropped i : Nat) : Nat :=
  if dropped < i then i - 1 else i

/-- The table without a column, which no key may refer to. -/
def Table.withoutColumn (t : Table) (i : Nat) : Except Fault Table :=
  let used := t.keys.flatten ++ (t.foreignKeys.map (·.columns)).flatten
  if used.contains i || t.columns.length ≤ 1 || !t.checks.isEmpty then
    .error (.misuse "The column cannot be dropped")
  else
    .ok { t with
      columns := t.columns.eraseIdx i
      keys := t.keys.map fun key => key.map (movedUp i)
      primary := t.primary.map (movedUp i)
      foreignKeys := t.foreignKeys.map fun k =>
        { k with columns := k.columns.map (movedUp i) }
      rows := t.rows.map fun row => row.eraseIdx i }

def alterTable (path : Path) (lenient : Bool) (change : Alteration) :
    Work Unit := do
  let found ← Work.find? .table path
  if lenient && found.isNone then return ()
  let { place, name, table } ← TableAt.find path
  let put (t : Table) : Work Unit :=
    Work.modify place.temporary fun c => c.replace place.schema name (.table t)
  match change with
  | .addColumn c keep =>
    if (table.position? c.name).isSome then
      if keep then return () else throw (.columnTaken c.name)
    if c.notNull || c.key || c.unique || c.references.isSome then
      throw (.misuse "Adding columns with constraints is not supported")
    refuseReferenced place name
    let (column, needs) ← columnOf place c
    let rows ← table.rows.mapM fun row =>
      return row ++ [← column.defaultValue]
    put { table with
      columns := table.columns ++ [column], needs := table.needs ++ needs, rows }
  | .dropColumn column missing =>
    match table.position? column with
    | none =>
      if missing then return () else throw (.columnMissing column)
    | some i =>
      refuseReferenced place name
      put (← Work.of (table.withoutColumn i))
  | .renameColumn old new =>
    match table.position? old with
    | none => throw (.columnMissing old)
    | some i =>
      if (table.position? new).isSome then throw (.columnTaken new)
      refuseReferenced place name
      put { table with
        columns := table.columns.modify i fun c => { c with name := new } }
  | .rename new =>
    refuseReferenced place name
    if (((← get).get place.temporary).find? .table place.schema new).isSome then
      throw (.taken .table new)
    Work.modify place.temporary fun c =>
      (c.erase .table place.schema name).insert ⟨place.schema, new, .table table⟩

/-- Drop a schema. The one that every database has stays. -/
def dropSchema (lenient : Bool) (path : Path) (cascade : Bool) :
    Work Unit := do
  let catalogs ← get
  let name := path.name
  if !((path.dropLast.map String.toLower).isSuffixOf [catalogs.name.toLower]) then
    throw (.catalogMissing (path.headD ""))
  else if !catalogs.stored.hasSchema name then
    if lenient then return () else throw (.missing .schema name)
  else if sameName name Sql.defaultSchema then
    throw (.misuse "The schema is internal")
  else
    let inside := catalogs.stored.entries.filter fun e => sameName e.schema name
    if !cascade && !inside.isEmpty then throw (.inUse name)
    let needed := inside.flatMap fun e =>
      (catalogs.stored.dependents e.definition.kind e.schema e.name).filter
        fun d => !sameName d.schema name
    for d in needed do
      Work.modify false (·.erase d.definition.kind d.schema d.name)
    Work.modify false fun c =>
      { schemas := c.schemas.filter fun s => !sameName s name
        entries := c.entries.filter fun e => !sameName e.schema name }

def dropObject (kind : ObjectKind) (lenient : Bool) (path : Path)
    (cascade : Bool) : Work Unit := do
  if kind = .schema then dropSchema lenient path cascade
  else
    match ← Work.find? kind path with
    | none => if lenient then return () else throw (.missing kind path.name)
    | some (place, e) =>
      if e.definition.kind ≠ kind then
        throw (.otherKind e.name e.definition.kind kind)
      dropEntry ⟨place.temporary, e.schema⟩ e cascade

end SchemaLedger.Engine
