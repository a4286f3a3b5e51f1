import SchemaLedger.Driver.Execution
import SchemaLedger.Text.Literal
import SchemaLedger.Version.Store
/-!
# The migration driver

A driver works over one connection. It runs scripts, reads and records the
version, drops everything, and closes the connection. It applies one script at
a time and never decides which version comes next.
-/

namespace SchemaLedger

structure Driver (σ : Type) where
  database : Database σ
  config : Config

namespace Driver

variable {σ : Type}

/-- Look for the migrations table, and create it if it is missing, while
holding the lock. -/
def ensureTable (d : Driver σ) : Action σ Unit := do
  Action.acquire
  let created ← Action.attempt
    (VersionStore.ensureTable d.database d.config.migrationsTable)
  let released ← Action.attempt Action.release
  match created, released with
  | .ok _, .ok () => return ()
  | .error fault, .ok () => throw fault
  | .ok _, .error fault => throw fault
  | .error fault, .error unlock => throw (fault.combine unlock)

/-- A driver over an open database, with fresh keys and a free lock. A missing
configuration is refused before the database is touched. -/
def connect (db : Database σ) (config? : Option Config) :
    Action σ (Driver σ) := do
  match config? with
  | none => throw (.input .configMissing)
  | some given =>
    Action.logAll given.normalizationLog
    let config := given.normalized
    let _ ← Action.call db .ping .connection
    modify fun s => { s with keys := {}, lock := {} }
    let driver : Driver σ := ⟨db, config⟩
    driver.ensureTable
    Action.log .debug ("Opened " ++ db.name ++ " migration driver (table: "
      ++ config.migrationsTable ++ ", multi-statement: "
      ++ toString config.multiStatement ++ ")")
    return driver

def lock (_ : Driver σ) : Action σ Unit :=
  Action.acquire

def unlock (_ : Driver σ) : Action σ Unit :=
  Action.release

def run (d : Driver σ) (script : Source) : Action σ Summary :=
  ExceptT.mk fun s =>
    let e := Execution.ofScript d.database d.config script s
    (e.result, e.session)

def version (d : Driver σ) : Action σ VersionState :=
  VersionStore.readCurrent d.database d.config.migrationsTable

def setVersion (d : Driver σ) (now : UInt64) (version : Int64) (dirty : Bool) :
    Action σ Unit := do
  let _ ← VersionStore.appendRecord d.database d.config.migrationsTable now
    version dirty
  return ()

/-- Execute a script and record how that went: the version as clean if all of
it ran, and as dirty otherwise. -/
def apply (d : Driver σ) (now : UInt64) (version : Int64) (script : Source) :
    Action σ Summary := do
  match ← Action.attempt (d.run script) with
  | .ok summary =>
    d.setVersion now version false
    Action.log .info ("Applied version " ++ toString version ++ " ("
      ++ toString summary.total ++ " statements)")
    return summary
  | .error fault =>
    Action.log .warn ("Migration to version " ++ toString version
      ++ " failed, marking it dirty: " ++ fault.message)
    match ← Action.attempt (d.setVersion now version true) with
    | .ok () => throw fault
    | .error recording => throw (fault.combine recording)

/-- Drop everything in the database. The migrations table goes too. -/
def dropAll (d : Driver σ) : Action σ Nat := do
  let dropped ← VersionStore.dropAll d.database
  Action.log .info ("Dropped " ++ toString dropped ++ " objects")
  return dropped

def close (d : Driver σ) : Action σ Unit := do
  let _ ← Action.call d.database .close .closeFailed
  return ()

def shown (d : Driver σ) (locked : Bool) : String :=
  "Driver \x7b db: " ++ Literal.quote d.database.name
    ++ ", config: DriverConfig \x7b migrations_table: "
    ++ Literal.quote d.config.migrationsTable
    ++ ", multi_statement: " ++ toString d.config.multiStatement
    ++ ", multi_statement_max_size: "
    ++ toString d.config.multiStatementMaxSize
    ++ " \x7d, locked: " ++ toString locked ++ " \x7d"

end Driver

end SchemaLedger
