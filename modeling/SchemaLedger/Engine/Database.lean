import SchemaLedger.Driver.Registry
import SchemaLedger.Engine.Storage
/-!
# The engine as a database

The calls of a driver as they are answered by the engine. Faults of the engine
become faults of the database by their wording alone. `Engine.factory` opens
databases for a registry.
-/

namespace SchemaLedger.Engine

/-- The query that looks for a table or a view in the catalog. The schema and
the name are literals, so case counts. -/
def lookupSql (name : String) : String :=
  let split := Sql.splitName name
  "SELECT COUNT(*) FROM information_schema.tables WHERE table_catalog = "
    ++ "current_database() AND table_schema = '"
    ++ Sql.escapeLiteral split.schema ++ "' AND table_name = '"
    ++ Sql.escapeLiteral split.table ++ "'"

/-- The query that lists what users have created, in drop order. -/
def listingSql : String :=
  "SELECT 0 AS phase, table_schema AS schema_name, table_name AS object_name, "
    ++ "'view' AS kind FROM information_schema.tables "
    ++ "WHERE table_catalog = current_database() AND table_type = 'VIEW' "
    ++ "UNION ALL SELECT 1, table_schema, table_name, 'table' "
    ++ "FROM information_schema.tables "
    ++ "WHERE table_catalog = current_database() AND table_type <> 'VIEW' "
    ++ "UNION ALL SELECT DISTINCT 2, schema_name, function_name, function_type "
    ++ "FROM duckdb_functions() "
    ++ "WHERE database_name = current_database() AND NOT internal "
    ++ "AND function_type IN ('macro', 'table_macro') "
    ++ "UNION ALL SELECT 3, schema_name, sequence_name, 'sequence' "
    ++ "FROM duckdb_sequences() WHERE database_name = current_database() "
    ++ "UNION ALL SELECT DISTINCT 4, schema_name, type_name, 'type' "
    ++ "FROM duckdb_types() "
    ++ "WHERE database_name = current_database() AND NOT internal "
    ++ "UNION ALL SELECT 5, schema_name, schema_name, 'schema' "
    ++ "FROM duckdb_schemas() WHERE database_name = current_database() "
    ++ "AND NOT internal AND schema_name <> 'main' "
    ++ "ORDER BY phase, schema_name, object_name"

def faultOf (sql : String) (f : Fault) : DatabaseError :=
  .ofEngine sql f.message

namespace Connection

/-- Read from the catalog, which cannot be done while a failed transaction is
open. -/
def reading {α : Type} (c : Connection) (fault : String → DatabaseError)
    (read : Catalog → α) : Except DatabaseError α :=
  if c.aborted then .error (fault Fault.aborted.message)
  else .ok (read c.catalogs.stored)

def transact (c : Connection) (sql : String) (params : List Value) :
    Except DatabaseError Nat × Connection :=
  match c.execute .begin 0 [] with
  | (.error fault, c) =>
    (.error (.transaction ("BEGIN failed: " ++ fault.message)), c)
  | (.ok _, c) =>
    match c.runLast sql (params.map Cell.ofValue) with
    | (.error fault, c) => (.error (faultOf sql fault), (c.execute .rollback 0 []).2)
    | (.ok outcome, c) =>
      match c.execute .commit 0 [] with
      | (.error fault, c) =>
        (.error (.transaction ("COMMIT failed: " ++ fault.message)), c)
      | (.ok _, c) => (.ok outcome.count, c)

/-- The answer to a call. What the texts of lookups and listings ask for is read from
the catalog. -/
def answer (c : Connection) :
    (call : Call) → Except DatabaseError call.Answer × Connection
  | .ping => (c.reading .connection fun _ => (), c)
  | .execute .schema sql =>
    let (r, c) := c.runScript sql
    (match r with
      | .ok () => .ok 0
      | .error fault => .error (faultOf sql fault), c)
  | .execute _ sql =>
    let (r, c) := c.runLast sql []
    (match r with
      | .ok outcome => .ok outcome.count
      | .error fault => .error (faultOf sql fault), c)
  | .query _ sql =>
    let (r, c) := c.runLast sql []
    (match r with
      | .ok outcome => .ok outcome.shown
      | .error fault => .error (faultOf sql fault), c)
  | .transact sql params => c.transact sql params
  | .relationExists name =>
    let split := Sql.splitName name
    (c.reading (.catalog (lookupSql name)) fun catalog =>
      catalog.hasRelation split.schema split.table, c)
  | .listObjects => (c.reading (.catalog listingSql) Catalog.objects, c)
  | .close => (.ok (), c)

end Connection

/-- Answer a call. Without a connection every call fails, and closing ends the
connection. -/
def State.answer (s : State) (call : Call) :
    Except DatabaseError call.Answer × State :=
  match s.connection? with
  | none => (.error .closed, s)
  | some c =>
    let (r, c) := c.answer call
    let s := s.withConnection c
    (r, if call = .close then s.disconnected else s)

def name : String := "duckdb"

def note? : Call → Option String
  | .execute mode sql =>
    some (name ++ " [" ++ mode.label ++ "]: " ++ sql)
  | .query mode sql =>
    some (name ++ " [" ++ mode.label ++ "] query: " ++ sql)
  | .transact sql _ => some (name ++ " [transaction]: " ++ sql)
  | _ => none

def database : Database State where
  name := Engine.name
  step call s := s.answer call
  note? := Engine.note?

/-- Open the database that a connection string locates. The engine is a part
of something larger that `db` works on. -/
def factory {σ : Type} (db : Database σ) (get : σ → State)
    (put : State → σ → σ) : Factory σ :=
  fun c => do
    Action.log .debug ("Opening " ++ Engine.name ++ " database '" ++ c.location
      ++ "'")
    match (get (← getThe (Session σ)).database).connect c.location with
    | .error reason => throw (.connection (.connection reason))
    | .ok opened =>
      modifyThe (Session σ) fun s => { s with database := put opened s.database }
      Driver.connect db (some c.config)

def registry {σ : Type} (db : Database σ) (get : σ → State)
    (put : State → σ → σ) : Registry σ :=
  (({} : Registry σ).register "duckdb" (factory db get put)).1

end SchemaLedger.Engine
