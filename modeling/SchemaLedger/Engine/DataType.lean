/-!
# Data types

The types of columns. Integers come in five widths with and without a sign,
and everything else in one size; lists, structures, maps and unions are made of
other types.
-/

namespace SchemaLedger.Engine

inductive IntegerType where
  | tinyint
  | smallint
  | integer
  | bigint
  | hugeint
  | utinyint
  | usmallint
  | uinteger
  | ubigint
  | uhugeint
  deriving DecidableEq, Repr

namespace IntegerType

def bits : IntegerType → Nat
  | tinyint | utinyint => 8
  | smallint | usmallint => 16
  | integer | uinteger => 32
  | bigint | ubigint => 64
  | hugeint | uhugeint => 128

def signed : IntegerType → Bool
  | tinyint | smallint | integer | bigint | hugeint => true
  | _ => false

def least (t : IntegerType) : Int :=
  if t.signed then -Int.pow 2 (t.bits - 1) else 0

/-- The least number above all numbers of the type. -/
def bound (t : IntegerType) : Int :=
  if t.signed then Int.pow 2 (t.bits - 1) else Int.pow 2 t.bits

def contains (t : IntegerType) (n : Int) : Bool :=
  decide (t.least ≤ n) && decide (n < t.bound)

def name : IntegerType → String
  | tinyint => "INT8"
  | smallint => "INT16"
  | integer => "INT32"
  | bigint => "INT64"
  | hugeint => "INT128"
  | utinyint => "UINT8"
  | usmallint => "UINT16"
  | uinteger => "UINT32"
  | ubigint => "UINT64"
  | uhugeint => "UINT128"

/-- The type in which numbers of two types are added. -/
def join (s t : IntegerType) : IntegerType :=
  if s.signed == t.signed then (if s.bits ≤ t.bits then t else s)
  else
    let (signed, unsigned) := if s.signed then (s, t) else (t, s)
    if unsigned.bits < signed.bits then signed
    else if unsigned.bits = 8 then smallint
    else if unsigned.bits = 16 then integer
    else if unsigned.bits = 32 then bigint
    else hugeint

end IntegerType

inductive TimeUnit where
  | second
  | millisecond
  | microsecond
  | nanosecond
  deriving DecidableEq, Repr

def TimeUnit.perSecond : TimeUnit → Nat
  | second => 1
  | millisecond => 1000
  | microsecond => 1000000
  | nanosecond => 1000000000

inductive DataType where
  | boolean
  | integer (t : IntegerType)
  | float
  | double
  | decimal (width scale : Nat)
  | varchar
  | blob
  | bits
  | uuid
  | date
  | time
  | timestamp (u : TimeUnit)
  | interval
  | enum (labels : List String)
  | list (element : DataType)
  | array (element : DataType) (size : Nat)
  | struct (fields : List (String × DataType))
  | map (key value : DataType)
  | union (members : List (String × DataType))
  deriving Repr, Inhabited

namespace DataType

mutual

def beq : DataType → DataType → Bool
  | boolean, boolean | float, float | double, double | varchar, varchar
  | blob, blob | bits, bits | uuid, uuid | date, date | time, time
  | interval, interval => true
  | integer s, integer t => s == t
  | decimal w m, decimal v n => w == v && m == n
  | timestamp u, timestamp v => u == v
  | enum ls, enum ms => ls == ms
  | list s, list t => beq s t
  | array s m, array t n => beq s t && m == n
  | struct fs, struct gs => beqFields fs gs
  | map k v, map l w => beq k l && beq v w
  | union fs, union gs => beqFields fs gs
  | _, _ => false
termination_by structural t => t

def beqFields :
    List (String × DataType) → List (String × DataType) → Bool
  | [], [] => true
  | (m, s) :: fs, (n, t) :: gs => m == n && beq s t && beqFields fs gs
  | _, _ => false
termination_by structural fs => fs

end

instance : BEq DataType := ⟨beq⟩

def named : List (String × DataType) :=
  [("boolean", boolean), ("bool", boolean), ("logical", boolean),
    ("tinyint", integer .tinyint), ("int1", integer .tinyint),
    ("smallint", integer .smallint), ("int2", integer .smallint),
    ("short", integer .smallint), ("int16", integer .smallint),
    ("integer", integer .integer), ("int", integer .integer),
    ("int4", integer .integer), ("signed", integer .integer),
    ("int32", integer .integer), ("integral", integer .integer),
    ("bigint", integer .bigint), ("int8", integer .bigint),
    ("long", integer .bigint), ("int64", integer .bigint),
    ("oid", integer .bigint),
    ("hugeint", integer .hugeint), ("int128", integer .hugeint),
    ("utinyint", integer .utinyint), ("uint8", integer .utinyint),
    ("usmallint", integer .usmallint), ("uint16", integer .usmallint),
    ("uinteger", integer .uinteger), ("uint32", integer .uinteger),
    ("ubigint", integer .ubigint), ("uint64", integer .ubigint),
    ("uhugeint", integer .uhugeint), ("uint128", integer .uhugeint),
    ("float", float), ("float4", float), ("real", float),
    ("double", double), ("float8", double),
    ("varchar", varchar), ("text", varchar), ("string", varchar),
    ("char", varchar), ("bpchar", varchar), ("nvarchar", varchar),
    ("json", varchar),
    ("blob", blob), ("bytea", blob), ("binary", blob), ("varbinary", blob),
    ("bit", bits), ("bitstring", bits),
    ("uuid", uuid), ("guid", uuid),
    ("date", date), ("time", time), ("timetz", time), ("interval", interval),
    ("timestamp", timestamp .microsecond), ("datetime", timestamp .microsecond),
    ("timestamp_us", timestamp .microsecond),
    ("timestamptz", timestamp .microsecond),
    ("timestamp_s", timestamp .second),
    ("timestamp_ms", timestamp .millisecond),
    ("timestamp_ns", timestamp .nanosecond)]

/-- The type of this name. Decimals have a width and a scale of their own, and
for all other types a width says nothing. -/
def ofName? (name : String) (modifiers : List Nat) : Option DataType :=
  if ["decimal", "numeric", "dec"].contains name.toLower then
    match modifiers with
    | [] => some (decimal 18 3)
    | [width] => if 1 ≤ width && width ≤ 38 then some (decimal width 0) else none
    | [width, scale] =>
      if 1 ≤ width && width ≤ 38 && scale ≤ width then
        some (decimal width scale)
      else none
    | _ => none
  else named.lookup name.toLower

def name : DataType → String
  | boolean => "BOOL"
  | integer t => t.name
  | float => "FLOAT"
  | double => "DOUBLE"
  | decimal width scale =>
    "DECIMAL(" ++ toString width ++ "," ++ toString scale ++ ")"
  | varchar => "VARCHAR"
  | blob => "BLOB"
  | bits => "BIT"
  | uuid => "UUID"
  | date => "DATE"
  | time => "TIME"
  | timestamp _ => "TIMESTAMP"
  | interval => "INTERVAL"
  | enum _ => "ENUM"
  | list _ => "LIST"
  | array _ _ => "ARRAY"
  | struct _ => "STRUCT"
  | map _ _ => "MAP"
  | union _ => "UNION"

end DataType

end SchemaLedger.Engine
