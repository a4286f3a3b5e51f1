import SchemaLedger.Driver.Session
import SchemaLedger.Sql.Name
import SchemaLedger.Version.Basic
/-!
# The version store

Version records live in one table that is only ever added to. The row with the
greatest sequence key is the current one, so every key that is issued has to
lie above all keys stored: the store looks at them when it finds the table and
when it reads the current record.
-/

namespace SchemaLedger.VersionStore

variable {σ : Type}

def createSql (table : String) : String :=
  "CREATE TABLE " ++ Sql.qualifiedTable table ++ " (sequence UBIGINT PRIMARY KEY, "
    ++ "version BIGINT NOT NULL, dirty UTINYINT NOT NULL)"

def latestSql (table : String) : String :=
  "SELECT sequence, version, dirty FROM " ++ Sql.qualifiedTable table
    ++ " ORDER BY sequence DESC LIMIT 1"

def insertSql (table : String) : String :=
  "INSERT INTO " ++ Sql.qualifiedTable table
    ++ " (sequence, version, dirty) VALUES (?, ?, ?)"

def maxKeySql (table : String) : String :=
  "SELECT max(sequence) FROM " ++ Sql.qualifiedTable table

def observe (key : UInt64) : Action σ Unit :=
  modify fun s => { s with keys := s.keys.observe key }

def issue (now : UInt64) : Action σ UInt64 :=
  modifyGet fun s => (s.keys.issue now, { s with keys := s.keys.issued now })

def column {α : Type} (query : String) (r : Except DatabaseError α) :
    Action σ α :=
  MonadExcept.ofExcept (r.mapError (.versionStore query))

/-- Move the keys past the greatest one in the table. The greatest key of an
empty table is a single null. -/
def observeStored (db : Database σ) (table : String) : Action σ Unit := do
  let query := maxKeySql table
  let rows ← Action.call db (.query .data query) (.versionStore query)
  match rows with
  | [] => pure ()
  | [] :: _ => pure ()
  | (.null :: _) :: _ => pure ()
  | row :: _ => observe (← column query (row.getUInt64 0))

/-- Create the migrations table unless the catalog lists it. The answer says
whether it was created. -/
def ensureTable (db : Database σ) (table : String) : Action σ Bool := do
  let found ← Action.call db (.relationExists table) fun cause =>
    .tableSetup (cause.sql?.getD table) cause
  if found then
    Action.log .debug ("Migrations table " ++ table ++ " already exists")
    observeStored db table
    return false
  else
    let query := createSql table
    let _ ← Action.call db (.execute .schema query) (.tableSetup query)
    Action.log .info ("Created migrations table " ++ table)
    return true

def parseRecord (row : Row) : Except DatabaseError VersionRecord := do
  return ⟨← row.getUInt64 0, ← row.getInt64 1, ← row.getBool 2⟩

def readCurrent (db : Database σ) (table : String) : Action σ VersionState := do
  let query := latestSql table
  let rows ← Action.call db (.query .data query) (.versionStore query)
  match rows with
  | [] => return .none
  | row :: _ =>
    let record ← column query (parseRecord row)
    observe record.sequence
    return record.state

def parameters (r : VersionRecord) : List Value :=
  [.ubigint r.sequence, .bigint r.version, Value.ofByte r.dirtyFlag]

/-- Add a record in a transaction of its own. When this fails the record has to
be taken for not stored. -/
def appendRecord (db : Database σ) (table : String) (now : UInt64)
    (version : Int64) (dirty : Bool) : Action σ VersionRecord := do
  let record : VersionRecord := ⟨← issue now, version, dirty⟩
  let query := insertSql table
  let _ ← Action.call db (.transact query (parameters record))
    (.versionStore query)
  Action.log .info ("Recorded version " ++ toString version ++ " (dirty: "
    ++ toString dirty ++ ") in " ++ table)
  return record

def dropEach (db : Database σ) : List CatalogObject →
    Action σ (List (CatalogObject × DatabaseError))
  | [] => return []
  | object :: rest => do
    let failure? : Option DatabaseError ← ExceptT.mk fun s =>
      match s.call db (.execute .schema object.dropSql) with
      | (.ok _, s) =>
        (.ok none, s.logged .info ("Dropped " ++ object.quotedName))
      | (.error cause, s) =>
        (.ok (some cause), s.logged .debug ("Deferring drop of "
          ++ object.quotedName ++ ": " ++ cause.message))
    let failures ← dropEach db rest
    return match failure? with
      | none => failures
      | some cause => (object, cause) :: failures

/-- Drop objects in passes. What a pass could not drop is tried again in the
next, since another object may have stood in the way; a pass that drops
nothing is the last, and its first failure is the outcome. -/
def dropPasses (db : Database σ) (pending : List CatalogObject)
    (dropped : Nat) : Action σ Nat := do
  let failures ← dropEach db pending
  match failures with
  | [] => return dropped + pending.length
  | (object, cause) :: _ =>
    if _h : failures.length < pending.length then
      dropPasses db (failures.map Prod.fst)
        (dropped + (pending.length - failures.length))
    else
      throw (.dropFailed object.dropSql cause)
termination_by pending.length
decreasing_by simpa using _h

/-- Drop everything users have created, the migrations table included. The
answer is the number of objects dropped. -/
def dropAll (db : Database σ) : Action σ Nat := do
  let objects ← Action.call db .listObjects fun cause =>
    .dropFailed (cause.sql?.getD "list objects") cause
  dropPasses db objects 0

end SchemaLedger.VersionStore
