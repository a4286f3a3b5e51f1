import SchemaLedger.Database.Object
import SchemaLedger.Engine.Cast
/-!
# Faults of the engine

What can be wrong with a statement, or go wrong while it is executed, and how
the engine words it. Clients of the engine see the wording only.
-/

namespace SchemaLedger.Engine

inductive Fault where
  /-- The text is no script. -/
  | unreadable
  /-- There is no statement in the script. -/
  | nothing
  | missing (kind : ObjectKind) (name : String)
  | taken (kind : ObjectKind) (name : String)
  /-- The name is that of an object of another kind. -/
  | otherKind (name : String) (found wanted : ObjectKind)
  | functionMissing (name : String)
  | columnMissing (name : String)
  | columnTaken (name : String)
  | catalogMissing (name : String)
  /-- The name is that of a schema and of the catalog. -/
  | ambiguous (name : String)
  /-- Something else depends on the object. -/
  | inUse (name : String)
  /-- Parts of a statement do not fit together. -/
  | misuse (reason : String)
  | unconvertible (shown : String) (type : DataType)
  | outOfRange (reason : String)
  /-- The rows would not satisfy a condition on them. -/
  | constraint (reason : String)
  /-- Statements have more or fewer parameters than they are given. -/
  | parameters (wanted given : Nat)
  /-- The transaction has failed and has to be rolled back. -/
  | aborted
  | transactionOpen
  | transactionMissing (wanted : String)

namespace Fault

def kindName : ObjectKind → String
  | .view => "View"
  | .table => "Table"
  | .scalarMacro => "Macro Function"
  | .tableMacro => "Table Macro Function"
  | .sequence => "Sequence"
  | .type => "Type"
  | .schema => "Schema"

def message : Fault → String
  | unreadable => "Parser Error: syntax error"
  | nothing => "No statement"
  | missing kind name =>
    "Catalog Error: " ++ kindName kind ++ " with name " ++ name
      ++ " does not exist!"
  | taken kind name =>
    "Catalog Error: " ++ kindName kind ++ " with name \"" ++ name
      ++ "\" already exists!"
  | otherKind name found wanted =>
    "Catalog Error: Existing object " ++ name ++ " is of type "
      ++ kindName found ++ ", trying to replace with type " ++ kindName wanted
  | functionMissing name =>
    "Catalog Error: Scalar Function with name " ++ name ++ " does not exist!"
  | columnMissing name =>
    "Binder Error: Referenced column \"" ++ name
      ++ "\" not found in FROM clause!"
  | columnTaken name =>
    "Catalog Error: Column with name " ++ name ++ " already exists!"
  | catalogMissing name =>
    "Binder Error: Catalog \"" ++ name ++ "\" does not exist!"
  | ambiguous name =>
    "Binder Error: Ambiguous reference to catalog or schema \"" ++ name ++ "\""
  | inUse name =>
    "Dependency Error: Cannot drop entry \"" ++ name
      ++ "\" because there are entries that depend on it."
  | misuse reason => "Binder Error: " ++ reason
  | unconvertible shown type =>
    "Conversion Error: Could not convert '" ++ shown ++ "' to " ++ type.name
  | outOfRange reason => "Out of Range Error: " ++ reason
  | constraint reason => "Constraint Error: " ++ reason
  | parameters wanted given =>
    "Invalid Input Error: " ++ toString given ++ " parameters for "
      ++ toString wanted
  | aborted =>
    "TransactionContext Error: Current transaction is aborted (please ROLLBACK)"
  | transactionOpen =>
    "TransactionContext Error: cannot start a transaction within a transaction"
  | transactionMissing wanted =>
    "TransactionContext Error: cannot " ++ wanted
      ++ " - no transaction is active"

end Fault

end SchemaLedger.Engine
