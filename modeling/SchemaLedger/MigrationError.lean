import SchemaLedger.Database.Error
import SchemaLedger.InputError
import SchemaLedger.Lock
import SchemaLedger.Text.Utf8
/-!
# Faults of a migration

What can go wrong while a database is migrated, as told to the caller. Several
independent faults of one operation are combined into one.
-/

namespace SchemaLedger

inductive MigrationError where
  | input (fault : InputError)
  /-- The database could not be opened or does not answer. -/
  | connection (cause : DatabaseError)
  /-- The migrations table could not be looked up or created. -/
  | tableSetup (query : String) (cause : DatabaseError)
  | statementFailed (statement : List UInt8) (cause : DatabaseError)
  | statementNotText (statement : List UInt8)
  /-- Version records could not be read or written. -/
  | versionStore (query : String) (cause : DatabaseError)
  | dropFailed (query : String) (cause : DatabaseError)
  | lock (fault : LockError)
  /-- No database is registered for a connection string of this scheme. -/
  | unknownScheme (scheme : String)
  | closeFailed (cause : DatabaseError)
  | multiple (faults : List MigrationError)

inductive Cause where
  | text (reason : String)
  | database (fault : DatabaseError)
  deriving DecidableEq, Repr

def Cause.message : Cause → String
  | text reason => reason
  | database fault => fault.message

namespace MigrationError

mutual

def message : MigrationError → String
  | input fault => fault.message
  | connection _ => "[M001] Database connection failed"
  | tableSetup query _ =>
    "[M002] Migrations table setup failed; query: " ++ query
  | statementFailed statement _ =>
    "[M003] Migration failed; statement: " ++ Utf8.lenient statement
  | statementNotText statement =>
    "[M004] Migration statement is not valid UTF-8: " ++ Utf8.lenient statement
  | versionStore query _ => "[M005] Version store query failed; query: " ++ query
  | dropFailed query _ => "[M006] Drop failed; query: " ++ query
  | lock .alreadyHeld => "[M007] Migration lock is already held"
  | lock .notHeld => "[M008] Migration lock is not held"
  | unknownScheme scheme =>
    "[M009] No migration driver registered for scheme '" ++ scheme ++ "'"
  | closeFailed _ => "[M010] Failed to close database"
  | multiple faults =>
    "[M011] " ++ toString faults.length ++ " errors occurred: "
      ++ "; ".intercalate (messages faults)

def messages : List MigrationError → List String
  | [] => []
  | fault :: faults => message fault :: messages faults

end

/-- What stands behind a fault, where it is known. -/
def cause? : MigrationError → Option Cause
  | input fault => fault.cause?.map .text
  | connection cause => some (.database cause)
  | tableSetup _ cause => some (.database cause)
  | statementFailed _ cause => some (.database cause)
  | versionStore _ cause => some (.database cause)
  | dropFailed _ cause => some (.database cause)
  | closeFailed cause => some (.database cause)
  | _ => none

/-- The faults in an aggregate, and a single fault by itself. -/
def toList : MigrationError → List MigrationError
  | multiple faults => faults
  | fault => [fault]

/-- Two faults as one aggregate, aggregates being opened. -/
def combine (first second : MigrationError) : MigrationError :=
  multiple (first.toList ++ second.toList)

@[simp] theorem toList_combine (first second : MigrationError) :
    (first.combine second).toList = first.toList ++ second.toList := rfl

def isLockError : MigrationError → Bool
  | lock _ => true
  | _ => false

def isSizeExceeded : MigrationError → Bool
  | input (.statementTooLarge _) => true
  | _ => false

def statement? : MigrationError → Option (List UInt8)
  | statementFailed statement _ => some statement
  | statementNotText statement => some statement
  | _ => none

end MigrationError

end SchemaLedger
