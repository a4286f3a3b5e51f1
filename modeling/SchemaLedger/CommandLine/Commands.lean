import SchemaLedger.CommandLine.Arguments
import SchemaLedger.Config.File
import SchemaLedger.Driver.Registry
/-!
# Commands

A command opens a driver, does one thing, prints one line and closes the
connection. Every command is a function on sessions like the operations it is
made of; a process that runs several commands starts each with a fresh session
on the database as the one before left it.
-/

namespace SchemaLedger.CommandLine

/-- What a command was doing when something went wrong. -/
inductive Task where
  | opening
  | reading
  | applying (version : Int64)
  | running (file : String)
  | recording (version : Int64)
  | dropping
  | closing
  deriving DecidableEq, Repr

def Task.failure : Task → String
  | opening => "Failed to open migration driver"
  | reading => "Failed to read current version"
  | applying version => "Migration to version " ++ toString version ++ " failed"
  | running file => "Script " ++ file ++ " failed"
  | recording version => "Failed to record version " ++ toString version
  | dropping => "Failed to drop database objects"
  | closing => "Failed to close database connection"

inductive CommandError where
  | databaseMissing
  | configFailed (path : String) (fault : InputError)
  /-- The script cannot be opened, for a reason of the system. -/
  | scriptMissing (path reason : String)
  /-- A failed migration has to be dealt with first. -/
  | dirty (version : Int64)
  | unconfirmed
  | failed (task : Task) (fault : MigrationError)
  /-- The lock is not as it should be. -/
  | lock (fault : MigrationError)

/-- What a failure has to say, from the command inwards. -/
def CommandError.chain : CommandError → List Cause
  | databaseMissing =>
    [.text "No database given; pass --database or set TIDEMARK_DATABASE"]
  | configFailed path fault =>
    .text ("Failed to load config: " ++ path) :: .text fault.message
      :: (fault.cause?.map .text).toList
  | scriptMissing path reason =>
    [.text ("Failed to open script: " ++ path), .text reason]
  | dirty version =>
    [.text ("Database is dirty at version " ++ toString version
      ++ "; fix it by hand, then run `tidemark force " ++ toString version
      ++ "`")]
  | unconfirmed => [.text "Refusing to drop every table without --yes"]
  | failed task fault =>
    .text task.failure :: .text fault.message :: fault.cause?.toList
  | lock fault => .text fault.message :: fault.cause?.toList

/-- What a command finds around it: the databases that can be opened, and the
files. A script that cannot be opened comes with the reason. -/
structure Surroundings (σ : Type) where
  registry : Registry σ
  script : String → Except String Source
  configFile : String → Config.FileContent

abbrev Step (σ : Type) := ExceptT CommandError (StateM (Session σ))

namespace Step

variable {σ : Type}

def ofAction {α : Type} (fault : MigrationError → CommandError)
    (a : Action σ α) : Step σ α :=
  ExceptT.mk fun s =>
    let (result, s) := a.run s
    (result.mapError fault, s)

def during {α : Type} (task : Task) (a : Action σ α) : Step σ α :=
  ofAction (.failed task) a

/-- Do something while holding the lock. How it went counts only when the lock
has been given back. -/
def locked {α : Type} (d : Driver σ) (task : Task) (a : Action σ α) :
    Step σ α := do
  ofAction .lock d.lock
  let result ← ofAction .lock (Action.attempt a)
  ofAction .lock d.unlock
  match result with
  | .ok value => return value
  | .error fault => throw (.failed task fault)

end Step

variable {σ : Type}

def baseConfig (around : Surroundings σ) : Option String →
    Except CommandError Config
  | none => .ok {}
  | some path =>
    (Config.ofFile path (around.configFile path)).mapError (.configFailed path)

def openDriver (around : Surroundings σ) (i : Invocation) :
    Step σ (Driver σ) := do
  match i.database with
  | none => throw .databaseMissing
  | some text =>
    let base ← MonadExcept.ofExcept (baseConfig around i.config)
    let driver ← Step.during .opening (around.registry.openWith text base)
    let config := driver.config
    modify (·.logged .debug
      ("Migrations table: " ++ config.migrationsTable ++ ", multi-statement: "
        ++ toString config.multiStatement ++ " (max "
        ++ toString config.multiStatementMaxSize ++ " bytes)"))
    return driver

def openScript (around : Surroundings σ) (path : String) : Step σ Source :=
  MonadExcept.ofExcept ((around.script path).mapError (.scriptMissing path))

def versionLine (output : OutputFormat) (state : VersionState) : String :=
  match output with
  | .text => "Version: " ++ state.shown
  | .json => state.toJson.pretty

def droppedLine (dropped : Nat) : String :=
  "Dropped " ++ toString dropped ++ " object"
    ++ (if dropped = 1 then "" else "s")

/-- Do what a command is for, at a clock reading. The outcome is the open
driver and the line to print. -/
def perform (around : Surroundings σ) (now : UInt64) (i : Invocation) :
    Step σ (Driver σ × String) := do
  match i.command with
  | .version output =>
    let d ← openDriver around i
    let state ← Step.during .reading d.version
    return (d, versionLine output state)
  | .apply version file =>
    let script ← openScript around file
    let d ← openDriver around i
    let current ← Step.during .reading d.version
    if current.dirty then throw (.dirty current.version)
    let summary ← Step.locked d (.applying version) (d.apply now version script)
    return (d, "Applied " ++ file ++ " -> version " ++ toString version ++ " ("
      ++ toString summary.schema ++ " schema, " ++ toString summary.data
      ++ " data statements)")
  | .run file =>
    let script ← openScript around file
    let d ← openDriver around i
    let summary ← Step.during (.running file) (d.run script)
    return (d, "Executed " ++ toString summary.total ++ " statements from "
      ++ file)
  | .force version =>
    let d ← openDriver around i
    Step.during (.recording version) (d.setVersion now version false)
    return (d, "Version: " ++ VersionState.shown ⟨version, false⟩)
  | .drop confirmed =>
    if !confirmed then throw .unconfirmed
    let d ← openDriver around i
    let dropped ← Step.locked d .dropping d.dropAll
    return (d, droppedLine dropped)

structure Report where
  printed : String := ""
  failure : Option CommandError := none

/-- Run a command. The line is printed before the connection is closed. -/
def Invocation.execute (i : Invocation) (around : Surroundings σ)
    (now : UInt64) (s : Session σ) : Report × Session σ :=
  match (perform around now i).run s with
  | (.error fault, s) => ({ failure := some fault }, s)
  | (.ok (d, line), s) =>
    match (Step.during .closing d.close).run s with
    | (.ok (), s) => ({ printed := line ++ "\n" }, s)
    | (.error fault, s) => ({ printed := line ++ "\n", failure := some fault }, s)

end SchemaLedger.CommandLine
