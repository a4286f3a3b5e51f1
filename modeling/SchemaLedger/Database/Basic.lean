import SchemaLedger.Database.Object
import SchemaLedger.Database.Value
import SchemaLedger.Script.Statement
/-!
# Databases

A database is seen through the calls that can be made on it. `Database σ` is a
machine with states `σ`: it answers each call from its state and moves on.
Nothing is assumed of the answers, so a statement about every database covers
faithful ones and ones that fail, or lie, at any call.
-/

namespace SchemaLedger

inductive Mode where
  /-- Statements that change the catalog. -/
  | schema
  /-- Scans of the catalog that only read. -/
  | scan
  /-- Ordinary statements. -/
  | data
  deriving DecidableEq, Repr

namespace Mode

def label : Mode → String
  | schema => "schema"
  | scan => "scan"
  | data => "data"

def ofKind : StatementKind → Mode
  | .schema => schema
  | .data => data

end Mode

inductive Call where
  | ping
  | execute (mode : Mode) (sql : String)
  | query (mode : Mode) (sql : String)
  /-- Execute one statement with parameters in a transaction of its own, which
  is committed before the answer. -/
  | transact (sql : String) (params : List Value)
  /-- Look for a table or view in the catalog. -/
  | relationExists (name : String)
  /-- List what users have created, in an order in which it can be dropped. -/
  | listObjects
  | close
  deriving DecidableEq, Repr

abbrev Call.Answer : Call → Type
  | ping => Unit
  | execute .. => Nat
  | query .. => List Row
  | transact .. => Nat
  | relationExists _ => Bool
  | listObjects => List CatalogObject
  | close => Unit

/-- A database with states `σ`. -/
structure Database (σ : Type) where
  /-- What the database is called in messages. -/
  name : String
  /-- Answer a call. -/
  step : (c : Call) → σ → Except DatabaseError c.Answer × σ
  /-- What the database itself logs when it is called. -/
  note? : Call → Option String := fun _ => none

/-- The database as a part of something larger, reached by `get` and put back
by `put`. -/
def Database.within {σ τ : Type} (db : Database σ) (get : τ → σ)
    (put : σ → τ → τ) : Database τ where
  name := db.name
  step c t :=
    let (answer, s) := db.step c (get t)
    (answer, put s t)
  note? := db.note?

/-- The database with a record of the calls made on it, latest last. -/
def Database.recorded {σ : Type} (db : Database σ) :
    Database (σ × List Call) where
  name := db.name
  step c s :=
    let (answer, t) := db.step c s.1
    (answer, t, s.2 ++ [c])
  note? := db.note?

end SchemaLedger
