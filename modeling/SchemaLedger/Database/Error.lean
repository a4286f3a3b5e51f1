/-!
# Faults of the database
-/

namespace SchemaLedger

inductive DatabaseError where
  | connection (reason : String)
  | execution (sql reason : String)
  | relationMissing (sql reason : String)
  | catalog (sql reason : String)
  | transaction (reason : String)
  /-- Another user of the connection died while holding it. -/
  | poisoned (reason : String)
  /-- A column does not hold what was asked of it. -/
  | typeMismatch (index : Nat) (expected found : String)
  | closed
  deriving DecidableEq, Repr

namespace DatabaseError

def message : DatabaseError → String
  | connection reason => "[D001] Database connection failed: " ++ reason
  | execution _ reason => "[D002] SQL execution failed: " ++ reason
  | relationMissing _ reason => "[D003] Table or view not found: " ++ reason
  | catalog _ reason => "[D004] Catalog query failed: " ++ reason
  | transaction reason => "[D005] Transaction failed: " ++ reason
  | poisoned reason => "[D006] Database mutex poisoned: " ++ reason
  | typeMismatch index expected found =>
    "[D007] Column " ++ toString index ++ " holds " ++ found ++ ", expected "
      ++ expected
  | closed => "[D008] Database connection is closed"

def sql? : DatabaseError → Option String
  | execution sql _ => some sql
  | relationMissing sql _ => some sql
  | catalog sql _ => some sql
  | _ => none

def isNotFound : DatabaseError → Bool
  | relationMissing .. => true
  | _ => false

/-- The second text occurs in the first. -/
def occursIn (needle : List Char) : List Char → Bool
  | [] => needle.isEmpty
  | c :: cs => needle.isPrefixOf (c :: cs) || occursIn needle cs

/-- A message of the engine speaks of a missing relation. The engine has no
codes for its faults, so they are told apart by their wording. -/
def namesMissingRelation (reason : String) : Bool :=
  let mentions (text : String) := occursIn text.toList reason.toList
  mentions "Table with name" || mentions "View with name"
    || mentions "Table or view with name"
    || (mentions "Catalog Error" && mentions "Table" && mentions "not found")

def ofEngine (sql reason : String) : DatabaseError :=
  if namesMissingRelation reason then .relationMissing sql reason
  else .execution sql reason

end DatabaseError

end SchemaLedger
