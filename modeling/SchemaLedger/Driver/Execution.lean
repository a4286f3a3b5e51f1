import SchemaLedger.Driver.Session
import SchemaLedger.Script.Statements
/-!
# Executing a script

The statements of a script are sent to the database one by one, each on the
path its kind asks for. Execution stops at the first fault; what has run by
then stays, since nothing wraps a script in a transaction. The script is read
only as far as it is executed.
-/

namespace SchemaLedger

/-- How many statements of each kind a script has executed. -/
structure Summary where
  schema : Nat := 0
  data : Nat := 0
  deriving DecidableEq, Repr

namespace Summary

def total (s : Summary) : Nat :=
  s.schema + s.data

def count (s : Summary) : Mode → Summary
  | .schema => { s with schema := s.schema + 1 }
  | .scan => { s with data := s.data + 1 }
  | .data => { s with data := s.data + 1 }

end Summary

structure Execution (σ : Type) where
  result : Except MigrationError Summary
  /-- The statements that were not taken. -/
  rest : Statements
  session : Session σ

namespace Execution

variable {σ : Type}

/-- Execute the statements left of a script of which `done` have been. A
statement loses the blanks of Unicode around it too, so that they cannot hide
its kind. -/
def run (db : Database σ) (statements : Statements) (done : Summary)
    (s : Session σ) : Execution σ :=
  match _h : statements.next with
  | (none, rest) =>
    { result := .ok done
      rest
      session := s.logged .debug ("Script finished: " ++ toString done.schema
        ++ " schema, " ++ toString done.data ++ " data statements") }
  | (some (.error fault), rest) =>
    { result := .error (.input fault), rest, session := s }
  | (some (.ok statement), rest) =>
    let bytes := Ascii.trim statement
    match Utf8.decode? bytes with
    | none =>
      { result := .error (.statementNotText bytes), rest, session := s }
    | some text =>
      let sql := Blank.trim text
      if sql = "" then
        run db rest done s
      else
        let encoded := Utf8.encode sql
        let mode := Mode.ofKind (.classify encoded)
        let s := s.logged .debug
          ("Executing " ++ mode.label ++ " statement: " ++ sql)
        match s.call db (.execute mode sql) with
        | (.error cause, s) =>
          { result := .error (.statementFailed encoded cause)
            rest
            session := s }
        | (.ok _, s) => run db rest (done.count mode) s
termination_by statements.weight
decreasing_by
  all_goals
    have := statements.weight_next_lt (by simp [_h])
    simp_all

def ofScript (db : Database σ) (c : Config) (source : Source)
    (s : Session σ) : Execution σ :=
  run db (.ofConfig source c) {} s

end Execution

end SchemaLedger
