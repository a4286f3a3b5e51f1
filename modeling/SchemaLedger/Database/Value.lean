import SchemaLedger.Database.Error
import SchemaLedger.Text.Shortest
/-!
# Values and rows

What is bound to a statement and what a query returns. The getters of a row
convert between the integer types where the number fits and refuse everything
else.
-/

namespace SchemaLedger

inductive Value where
  | null
  | boolean (b : Bool)
  | bigint (n : Int64)
  | ubigint (n : UInt64)
  /-- A double-precision number, by its bits. -/
  | double (bits : UInt64)
  | text (s : String)
  deriving DecidableEq, Repr

namespace Value

def typeName : Value → String
  | null => "NULL"
  | boolean _ => "BOOLEAN"
  | bigint _ => "BIGINT"
  | ubigint _ => "UBIGINT"
  | double _ => "DOUBLE"
  | text _ => "VARCHAR"

def shown : Value → String
  | null => "NULL"
  | boolean b => if b then "true" else "false"
  | bigint n => toString n
  | ubigint n => toString n
  | double bits => Shortest.plain .double bits.toNat
  | text s => s

/-- A byte is kept as an unsigned integer. -/
def ofByte (b : UInt8) : Value :=
  ubigint b.toUInt64

end Value

/-- A row of a result, its columns in the order they were selected. -/
abbrev Row := List Value

namespace Row

def get {α : Type} (expected : String) (convert : Value → Option α) (r : Row)
    (index : Nat) : Except DatabaseError α :=
  match r[index]? with
  | none =>
    .error (.typeMismatch index expected
      ("nothing (row has " ++ toString r.length ++ " columns)"))
  | some v =>
    match convert v with
    | some a => .ok a
    | none =>
      .error (.typeMismatch index expected (v.typeName ++ " " ++ v.shown))

def int64? : Value → Option Int64
  | .bigint n => some n
  | .ubigint n => if n.toNat < Nat.pow 2 63 then some n.toInt64 else none
  | _ => none

def uint64? : Value → Option UInt64
  | .ubigint n => some n
  | .bigint n => if 0 ≤ n then some n.toUInt64 else none
  | _ => none

/-- A truth value, or an integer other than zero. -/
def bool? : Value → Option Bool
  | .boolean b => some b
  | .bigint n => some (n != 0)
  | .ubigint n => some (n != 0)
  | _ => none

def text? : Value → Option String
  | .text s => some s
  | _ => none

def getInt64 (r : Row) : Nat → Except DatabaseError Int64 :=
  r.get "BIGINT" int64?

def getUInt64 (r : Row) : Nat → Except DatabaseError UInt64 :=
  r.get "UBIGINT" uint64?

def getBool (r : Row) : Nat → Except DatabaseError Bool :=
  r.get "BOOLEAN" bool?

def getText (r : Row) : Nat → Except DatabaseError String :=
  r.get "VARCHAR" text?

end Row

end SchemaLedger
