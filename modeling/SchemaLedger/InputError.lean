/-!
# Faults of the input

What can be wrong with the things an operator supplies: the configuration, the
connection string and the script.
-/

namespace SchemaLedger

inductive InputError where
  | configMissing
  | configNotFound (path : String)
  | configUnreadable (path reason : String)
  /-- What the configuration file says is no configuration. -/
  | configMalformed (reason : String)
  | optionInvalid (key value reason : String)
  | connectionInvalid (reason : String)
  | statementTooLarge (cap : Nat)
  | scriptUnreadable (cause : String)
  deriving DecidableEq, Repr

namespace InputError

def message : InputError → String
  | configMissing => "[C001] No driver configuration supplied"
  | configNotFound path => "[C002] Config file not found: " ++ path
  | configUnreadable path reason =>
    "[C003] Failed to parse config: " ++ path ++ ": " ++ reason
  | configMalformed reason => "[C003] Failed to parse config: " ++ reason
  | optionInvalid key value reason =>
    "[C004] Invalid value '" ++ value ++ "' for '" ++ key ++ "': " ++ reason
  | connectionInvalid reason => "[C005] Invalid connection string: " ++ reason
  | statementTooLarge cap =>
    "[C006] Statement exceeds multi-statement max size of " ++ toString cap
      ++ " bytes"
  | scriptUnreadable _ => "[C007] Failed to read migration script"

def cause? : InputError → Option String
  | scriptUnreadable cause => some cause
  | _ => none

end InputError

end SchemaLedger
