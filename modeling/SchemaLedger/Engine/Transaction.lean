import SchemaLedger.Engine.Creation
import SchemaLedger.Engine.Grammar
/-!
# Transactions

Every statement has its effect as a whole or not at all. Statements between
`BEGIN` and `COMMIT` are undone together by `ROLLBACK`, and once one of them
has failed, nothing else is possible.
-/

namespace SchemaLedger.Engine

inductive Outcome where
  | rows (r : Relation)
  /-- The number of rows that have been inserted, updated or deleted. -/
  | changed (n : Nat)
  | done

namespace Outcome

def count : Outcome → Nat
  | changed n => n
  | _ => 0

def shown : Outcome → List Row
  | rows r => r.rows.map fun row => row.map Cell.toValue
  | changed n => [[.bigint (Int64.ofNat n)]]
  | done => []

end Outcome

def Statement.execute (params : List Cell) : Statement → Work Outcome
  | createTable temporary conflict path columns constraints => do
    Engine.createTable temporary conflict path columns constraints
    return .done
  | createTableAs temporary conflict path q =>
    .changed <$> Engine.createTableAs temporary conflict path q params
  | createView temporary conflict path names q => do
    Engine.createView temporary conflict path names q
    return .done
  | createSchema conflict path => do
    Engine.createSchema conflict path
    return .done
  | createSequence temporary conflict path start increment => do
    createOther temporary conflict path (.sequence start increment none)
    return .done
  | createType temporary conflict path t => do
    createOther temporary conflict path (.type (← t.resolve))
    return .done
  | createMacro temporary conflict path names body => do
    createOther temporary conflict path
      (match body with
        | .value e => .scalarMacro names e
        | .rows q => .tableMacro names q)
    return .done
  | alter path lenient change => do
    alterTable path lenient change
    return .done
  | drop kind lenient path cascade => do
    dropObject kind lenient path cascade
    return .done
  | insert path columns source =>
    .changed <$> insertRows path columns source params
  | insertDefaults path => .changed <$> insertDefaultRow path
  | update path changes condition =>
    .changed <$> updateRows path changes condition params
  | delete path condition => .changed <$> deleteRows path condition params
  | query q => .rows <$> q.run params
  | begin | commit | rollback => return .done

/-- A connection: the catalogs it sees, and, while a transaction is open, what
they were when it began. -/
structure Connection where
  catalogs : Catalogs
  saved : Option Catalogs := none
  /-- A statement of the open transaction has failed. -/
  aborted : Bool := false

namespace Connection

def committed (c : Connection) : Catalog :=
  (c.saved.getD c.catalogs).stored

def restored (c : Connection) : Connection :=
  { catalogs := (c.saved.getD c.catalogs).countedAs c.catalogs }

/-- End the open transaction. One that has failed is undone in any case. -/
def finish (c : Connection) (word : String) (keep : Bool) :
    Except Fault Outcome × Connection :=
  if c.saved.isNone then (.error (.transactionMissing word), c)
  else if keep && !c.aborted then (.ok .done, { catalogs := c.catalogs })
  else (.ok .done, c.restored)

/-- Execute a statement with values for its parameters, of which it should
have `wanted` ones. -/
def execute (c : Connection) (st : Statement) (wanted : Nat)
    (params : List Cell) : Except Fault Outcome × Connection :=
  let failed (fault : Fault) (catalogs : Catalogs) :=
    (.error fault, { c with catalogs, aborted := c.saved.isSome })
  match st with
  | .commit => c.finish "commit" true
  | .rollback => c.finish "rollback" false
  | st =>
    if c.aborted then (.error .aborted, c)
    else
      match st with
      | .begin =>
        if c.saved.isSome then failed .transactionOpen c.catalogs
        else (.ok .done, { c with saved := some c.catalogs })
      | st =>
        match StateT.run (ExceptT.run (st.execute params)) c.catalogs with
        | (.error fault, reached) =>
          failed fault (c.catalogs.countedAs reached)
        | (.ok outcome, catalogs) =>
          if wanted = params.length then (.ok outcome, { c with catalogs })
          else failed (.parameters wanted params.length) c.catalogs

def executeAll (c : Connection) :
    List (Statement × Nat) → Except Fault Unit × Connection
  | [] => (.ok (), c)
  | (st, wanted) :: rest =>
    match c.execute st wanted [] with
    | (.error fault, c) => (.error fault, c)
    | (.ok _, c) => executeAll c rest

def runScript (c : Connection) (sql : String) :
    Except Fault Unit × Connection :=
  match Grammar.read? sql with
  | none => (.error .unreadable, c)
  | some statements => c.executeAll statements

/-- Run a script for the sake of its last statement, which takes the
parameters. -/
def runLast (c : Connection) (sql : String) (params : List Cell) :
    Except Fault Outcome × Connection :=
  match Grammar.read? sql with
  | none => (.error .unreadable, c)
  | some statements =>
    match statements.getLast? with
    | none => (.error .nothing, c)
    | some (st, wanted) =>
      match c.executeAll statements.dropLast with
      | (.error fault, c) => (.error fault, c)
      | (.ok (), c) => c.execute st wanted params

end Connection

end SchemaLedger.Engine
