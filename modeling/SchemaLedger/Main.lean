import SchemaLedger.CommandLine.Commands
import SchemaLedger.Engine.Journal
import Std.Time.DateTime.Timestamp
/-!
# The program

The outermost layer: it fetches what a command needs from the world, runs the
command, and puts its effects back. Nothing is decided here.
-/

namespace SchemaLedger.CommandLine

/-- The engine, and the calls made on it. -/
abbrev World := Engine.State × List Call

def usage : String :=
  "Usage: tidemark [-v] [-d DATABASE] [-c CONFIG] COMMAND\n\n"
    ++ "Commands:\n"
    ++ "  version [-o text|json]  Print the current version\n"
    ++ "  apply VERSION FILE      Execute a script and record its version\n"
    ++ "  run FILE                Execute a script\n"
    ++ "  force VERSION           Record a version as clean\n"
    ++ "  drop --yes              Drop everything in the database\n"

def programVersion : String := "tidemark 0.1.0"

def Invocation.location? (i : Invocation) : Option String := do
  let c ← (ConnectionString.parse {} (← i.database)).1.toOption
  if Engine.Storage.inMemory.contains c.location then none else some c.location

def Invocation.script? (i : Invocation) : Option String :=
  match i.command with
  | .apply _ file => some file
  | .run file => some file
  | _ => none

def reasonOf : IO.Error → String
  | .noFileOrDirectory .. => "No such file or directory (os error 2)"
  | .permissionDenied .. => "Permission denied (os error 13)"
  | .inappropriateType .. => "Is a directory (os error 21)"
  | e => toString e

def fetch (path : String) : IO Config.FileContent := do
  try
    return .bytes (← IO.FS.readBinFile path).toList
  catch
  | .noFileOrDirectory .. => return .missing
  | e => return .unreadable (reasonOf e)

def scriptOf : Config.FileContent → Except String Source
  | .bytes content => .ok (Source.ofBytes content)
  | .missing => .error "No such file or directory (os error 2)"
  | .unreadable reason =>
    .ok (Source.paced { failure := some (0, reason) } [])

/-- The engine with the database that is stored at a location, if a file can be
there. -/
def openStorage (location : String) : IO Engine.State := do
  try
    let handle ← IO.FS.Handle.mk location .append
    handle.flush
    let journal ← IO.FS.readBinFile location
    let folders :=
      Engine.Storage.through [] (Engine.Storage.names location).dropLast
    return Engine.Journal.restore location journal.toList
      { storage := { folders } }
  catch _ => return {}

def report (verbose : Bool) (lines : List LogLine) : IO Unit :=
  for line in lines do
    if verbose || line.level = .warn then
      IO.eprintln ("[" ++ line.level.label ++ "] " ++ line.message)

def explain (causes : List Cause) : IO Unit := do
  let texts := causes.map fun c =>
    match c with
    | .text reason => reason
    | .database fault => fault.message
  match texts with
  | [] => return ()
  | first :: rest =>
    IO.eprintln ("Error: " ++ first)
    if !rest.isEmpty then IO.eprintln "\nCaused by:"
    for (text, i) in rest.zipIdx do
      IO.eprintln
        ("    " ++ (if rest.length = 1 then "" else toString i ++ ": ") ++ text)

/-- A clock reading for keys: the nanoseconds since 1970, or zero where they are no
signed number of 64 bits or negative. -/
def clockReading (nanoseconds : Int) : UInt64 :=
  if 0 ≤ nanoseconds && nanoseconds < Int.pow 2 63 then .ofNat nanoseconds.toNat
  else 0

def runCommand (i : Invocation) : IO UInt32 := do
  let location? := i.location?
  let engine ←
    match location? with
    | some location => openStorage location
    | none => pure {}
  let script ← i.script?.mapM fetch
  let config ← i.config.mapM fetch
  let around : Surroundings World :=
    { registry := Engine.registry Engine.database.recorded Prod.fst
        fun s w => (s, w.2)
      script := fun _ => scriptOf (script.getD .missing)
      configFile := fun _ => config.getD .missing }
  let now := clockReading (← Std.Time.Timestamp.now).toNanosecondsSinceUnixEpoch.toInt
  let (result, s) := i.execute around now { database := (engine, []) }
  report i.verbose s.log
  IO.print result.printed
  match location?, s.database.2 with
  | some location, call :: calls => do
    let handle ← IO.FS.Handle.mk location .append
    handle.putStr (Engine.Journal.addition (call :: calls))
  | _, _ => pure ()
  match result.failure with
  | none => return 0
  | some failure =>
    explain failure.chain
    return 1

end SchemaLedger.CommandLine

open SchemaLedger.CommandLine in
def main (args : List String) : IO UInt32 := do
  let environment ← IO.getEnv "TIDEMARK_DATABASE"
  match Invocation.read args environment with
  | .ok i => runCommand i
  | .error .helpRequested => do
    IO.print usage
    return 0
  | .error .versionRequested => do
    IO.println programVersion
    return 0
  | .error fault => do
    IO.eprintln ("error: " ++ fault.message ++ "\n\n" ++ usage)
    return 2
