import SchemaLedger.Engine.Database
import SchemaLedger.Text.Sized
/-!
# Journals

A database is written to a file as the calls that have made it what it is. They
are grouped into the connections they were made over, since what a connection
leaves uncommitted is lost. Making the calls again gives the database back.
-/

namespace SchemaLedger.Engine.Journal

/-- The calls that a database has to be made on again. -/
def matters : Call → Bool
  | .execute .. | .query .. | .transact .. => true
  | _ => false

def valueTexts (v : Value) : List String :=
  match v with
  | .double bits => [v.typeName, toString bits]
  | v => [v.typeName, v.shown]

def values? : List String → Option (List Value)
  | [] => some []
  | type :: text :: rest => do
    let v ←
      match type, text.toInt? with
      | "NULL", _ => some Value.null
      | "BOOLEAN", _ => some (.boolean (text == "true"))
      | "BIGINT", some n => some (.bigint (Int64.ofInt n))
      | "UBIGINT", some n => some (.ubigint n.toNat.toUInt64)
      | "DOUBLE", some n => some (.double n.toNat.toUInt64)
      | "VARCHAR", _ => some (.text text)
      | _, _ => none
    (v :: ·) <$> values? rest
  | _ => none

def callTexts : Call → List String
  | .execute mode sql => ["execute", mode.label, sql]
  | .query mode sql => ["query", mode.label, sql]
  | .transact sql params => "transact" :: sql :: params.flatMap valueTexts
  | _ => []

def mode? (label : String) : Option Mode :=
  [Mode.schema, .scan, .data].find? (·.label == label)

def call? : List String → Option Call
  | ["execute", label, sql] => (mode? label).map (.execute · sql)
  | ["query", label, sql] => (mode? label).map (.query · sql)
  | "transact" :: sql :: params => (values? params).map (.transact sql)
  | _ => none

/-- What is added to a journal when a connection is closed over which these
calls have been made. -/
def addition (calls : List Call) : String :=
  Sized.write
    [Sized.write ((calls.filter matters).map fun c => Sized.write (callTexts c))]

/-- The calls in a journal, connection by connection. -/
def read? (journal : String) : Option (List (List Call)) := do
  let connections ← Sized.read? journal.toList
  connections.mapM fun connection => do
    let calls ← Sized.read? connection.toList
    calls.mapM fun c => do
      call? (← Sized.read? c.toList)

/-- Make calls again over a connection of their own to the database at a
location. -/
def again (location : String) (s : State) (calls : List Call) : State :=
  match s.connect location with
  | .ok s => (calls.foldl (fun s c => (s.answer c).2) s).disconnected
  | .error _ => s

/-- The engine with the database that the bytes of a journal describe stored
at a location. A file that is no journal is no database. -/
def restore (location : String) (journal : List UInt8) (s : State) : State :=
  match (Utf8.decode? journal).bind read?, s.storage.file? location with
  | some connections, _ => connections.foldl (again location) s
  | none, some file =>
    { s with
      storage := { s.storage with
        files := (file, .other) :: s.storage.files.filter (·.1 != file) } }
  | none, none => s

end SchemaLedger.Engine.Journal
