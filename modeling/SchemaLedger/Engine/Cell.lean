import SchemaLedger.Database.Value
import SchemaLedger.Engine.DataType
import SchemaLedger.Text.Decimal
import SchemaLedger.Text.Literal
/-!
# Cells

A cell holds a value of one of the engine's types. `Cell.toValue` is how it
appears in a row of a result: truth values, integers, floating-point numbers
and texts as such, the widest integers as text where they do not fit, and
everything else as text that describes the cell.
-/

namespace SchemaLedger.Engine

inductive Cell where
  | null
  | boolean (b : Bool)
  | integer (t : IntegerType) (n : Int)
  /-- A single-precision number, by its bits. -/
  | float (bits : Nat)
  /-- A double-precision number, by its bits. -/
  | double (bits : Nat)
  /-- The decimal `unscaled / 10 ^ scale`. -/
  | decimal (width scale : Nat) (unscaled : Int)
  | text (s : String)
  | blob (bytes : List UInt8)
  /-- Days since the beginning of 1970. -/
  | date (days : Int)
  /-- Microseconds since midnight. -/
  | time (micros : Int)
  /-- Units of time since the beginning of 1970. -/
  | timestamp (u : TimeUnit) (n : Int)
  | interval (months days micros : Int)
  | enum (label : String)
  | list (cells : List Cell)
  | array (cells : List Cell)
  | struct (fields : List (String × Cell))
  | map (entries : List (Cell × Cell))
  | union (cell : Cell)
  deriving Repr, Inhabited

namespace Cell

mutual

def beq : Cell → Cell → Bool
  | null, null => true
  | boolean a, boolean b => a == b
  | integer s m, integer t n => s == t && m == n
  | float a, float b => a == b
  | double a, double b => a == b
  | decimal w s m, decimal v t n => w == v && s == t && m == n
  | text a, text b => a == b
  | blob as, blob bs => as == bs
  | date m, date n => m == n
  | time m, time n => m == n
  | timestamp u m, timestamp v n => u == v && m == n
  | interval m d u, interval n e v => m == n && d == e && u == v
  | enum a, enum b => a == b
  | list as, list bs => beqAll as bs
  | array as, array bs => beqAll as bs
  | struct fs, struct gs => beqFields fs gs
  | map es, map fs => beqEntries es fs
  | union a, union b => beq a b
  | _, _ => false
termination_by structural a => a

def beqAll : List Cell → List Cell → Bool
  | [], [] => true
  | a :: as, b :: bs => beq a b && beqAll as bs
  | _, _ => false
termination_by structural as => as

def beqFields : List (String × Cell) → List (String × Cell) → Bool
  | [], [] => true
  | (m, a) :: fs, (n, b) :: gs => m == n && beq a b && beqFields fs gs
  | _, _ => false
termination_by structural fs => fs

def beqEntries : List (Cell × Cell) → List (Cell × Cell) → Bool
  | [], [] => true
  | (k, a) :: es, (l, b) :: fs => beq k l && beq a b && beqEntries es fs
  | _, _ => false
termination_by structural es => es

end

instance : BEq Cell := ⟨beq⟩

@[simp] theorem text_beq_null (s : String) : (text s == null) = false := rfl

def unitWord : TimeUnit → String
  | .second => "Second"
  | .millisecond => "Millisecond"
  | .microsecond => "Microsecond"
  | .nanosecond => "Nanosecond"

def integerWord : IntegerType → String
  | .tinyint => "TinyInt"
  | .smallint => "SmallInt"
  | .integer => "Int"
  | .bigint => "BigInt"
  | .hugeint => "HugeInt"
  | .utinyint => "UTinyInt"
  | .usmallint => "USmallInt"
  | .uinteger => "UInt"
  | .ubigint => "UBigInt"
  | .uhugeint => "HugeInt"

def wrapped (word contents : String) : String :=
  word ++ "(" ++ contents ++ ")"

def bracketed (items : List String) : String :=
  "[" ++ ", ".intercalate items ++ "]"

def braced (word : String) (fields : List (String × String)) : String :=
  word ++ " \x7b " ++ ", ".intercalate (fields.map fun f => f.1 ++ ": " ++ f.2)
    ++ " \x7d"

mutual

def described : Cell → String
  | null => "Null"
  | boolean b => wrapped "Boolean" (toString b)
  | integer t n => wrapped (integerWord t) (toString n)
  | float bits => wrapped "Float" (Shortest.literal .single bits)
  | double bits => wrapped "Double" (Shortest.literal .double bits)
  | decimal width scale unscaled =>
    wrapped "Decimal" (braced "Decimal"
      [("width", toString width), ("scale", toString scale),
        ("value", toString unscaled)])
  | text s => wrapped "Text" (Literal.quote s)
  | blob bytes =>
    wrapped "Blob" (bracketed (bytes.map fun b => toString b.toNat))
  | date days => wrapped "Date32" (toString days)
  | time micros => wrapped "Time64" ("Microsecond, " ++ toString micros)
  | timestamp u n => wrapped "Timestamp" (unitWord u ++ ", " ++ toString n)
  | interval months days micros =>
    braced "Interval" [("months", toString months), ("days", toString days),
      ("nanos", toString (micros * 1000))]
  | enum label => wrapped "Enum" (Literal.quote label)
  | list cells => wrapped "List" (bracketed (describedAll cells))
  | array cells => wrapped "Array" (bracketed (describedAll cells))
  | struct fields =>
    wrapped "Struct" (wrapped "OrderedMap" (bracketed (describedFields fields)))
  | map entries =>
    wrapped "Map" (wrapped "OrderedMap" (bracketed (describedEntries entries)))
  | union cell => wrapped "Union" (described cell)

def describedAll : List Cell → List String
  | [] => []
  | c :: cs => described c :: describedAll cs

def describedFields : List (String × Cell) → List String
  | [] => []
  | (name, c) :: fields =>
    wrapped "" (Literal.quote name ++ ", " ++ described c)
      :: describedFields fields

def describedEntries : List (Cell × Cell) → List String
  | [] => []
  | (key, c) :: entries =>
    wrapped "" (described key ++ ", " ++ described c)
      :: describedEntries entries

end

def widened (bits : Nat) : Nat :=
  match Shortest.Format.single.decode bits with
  | .nan => 0x7FF8000000000000
  | .infinite negative => Nearest.infinity .double negative
  | .finite negative m e _ =>
    Nearest.ofRatio .double negative (m * Nat.pow 2 e.toNat)
      (Nat.pow 2 (-e).toNat)

/-- How an integer appears in a row. Integers without a sign stay so, and those
with one that do not fit 64 bits become text. -/
def integerValue (t : IntegerType) (n : Int) : Value :=
  if t.signed || t == .uhugeint then
    if -Int.pow 2 63 ≤ n && n < Int.pow 2 63 then .bigint (Int64.ofInt n)
    else .text (toString n)
  else .ubigint n.toNat.toUInt64

def toValue : Cell → Value
  | null => .null
  | boolean b => .boolean b
  | integer t n => integerValue t n
  | float bits => .double (widened bits).toUInt64
  | double bits => .double bits.toUInt64
  | text s => .text s
  | decimal width scale unscaled =>
    if scale = 0 then integerValue .hugeint unscaled
    else .text (described (.decimal width scale unscaled))
  | cell => .text (described cell)

def ofValue : Value → Cell
  | .null => null
  | .boolean b => boolean b
  | .bigint n => integer .bigint n.toInt
  | .ubigint n => integer .ubigint n.toNat
  | .double bits => double bits.toNat
  | .text s => text s

end Cell

end SchemaLedger.Engine
