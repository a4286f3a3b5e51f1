import SchemaLedger.Engine.Fault
import SchemaLedger.Engine.Statement
/-!
# Operations on cells

How cells are compared and calculated with. The absence of a value spreads:
whatever is done with it is absent again, but for `and` and `or` where the
other operand decides alone.
-/

namespace SchemaLedger.Engine

namespace Cell

def type? : Cell → Option DataType
  | boolean _ => some .boolean
  | integer t _ => some (.integer t)
  | float _ => some .float
  | double _ => some .double
  | decimal width scale _ => some (.decimal width scale)
  | text _ => some .varchar
  | blob _ => some .blob
  | date _ => some .date
  | time _ => some .time
  | timestamp u _ => some (.timestamp u)
  | interval .. => some .interval
  | _ => none

/-- Where a floating-point number stands: below all numbers, among them, above
them, or, when it is undefined, last of all. -/
def extremeOf (f : Shortest.Format) (bits : Nat) : Nat :=
  match f.decode bits with
  | .infinite true => 0
  | .finite .. => 1
  | .infinite false => 2
  | .nan => 3

def extreme : Cell → Nat
  | float bits => extremeOf .single bits
  | double bits => extremeOf .double bits
  | _ => 1

/-- The length of an interval in microseconds, with months of thirty days. -/
def intervalLength (months days micros : Int) : Int :=
  (months * 30 + days) * 86400000000 + micros

def compare (a b : Cell) : Ordering :=
  match a.ratio?, b.ratio? with
  | some (p, q), some (r, s) => Ord.compare (p * s) (r * q)
  | _, _ =>
    match a, b with
    | text s, text t => Ord.compare s t
    | date m, date n => Ord.compare m n
    | time m, time n => Ord.compare m n
    | timestamp u m, timestamp v n =>
      Ord.compare (m * Calendar.nanosOf u) (n * Calendar.nanosOf v)
    | interval m d u, interval m' d' u' =>
      Ord.compare (intervalLength m d u) (intervalLength m' d' u')
    | blob s, blob t => Ord.compare (s.map UInt8.toNat) (t.map UInt8.toNat)
    | float _, _ => Ord.compare a.extreme b.extreme
    | double _, _ => Ord.compare a.extreme b.extreme
    | _, float _ => Ord.compare a.extreme b.extreme
    | _, double _ => Ord.compare a.extreme b.extreme
    | _, _ => Ord.compare (Cast.shown a) (Cast.shown b)

end Cell

def castTo (t : DataType) (c : Cell) : Except Fault Cell :=
  match Cast.cast? t c with
  | some cell => .ok cell
  | none => .error (.unconvertible (Cast.shown c) t)

/-- Two cells with a text among them read as what the other one is. -/
def aligned (a b : Cell) : Except Fault (Cell × Cell) := do
  match a, b with
  | .text _, .text _ => return (a, b)
  | .text _, _ =>
    match b.type? with
    | some t => return (← castTo t a, b)
    | none => return (a, b)
  | _, .text _ =>
    match a.type? with
    | some t => return (a, ← castTo t b)
    | none => return (a, b)
  | .date _, .timestamp u _ => return (← castTo (.timestamp u) a, b)
  | .timestamp u _, .date _ => return (a, ← castTo (.timestamp u) b)
  | _, _ => return (a, b)

/-- What a condition says about a row: whether it holds, if that is known. -/
def truth? (c : Cell) : Except Fault (Option Bool) := do
  match ← castTo .boolean c with
  | .boolean b => return some b
  | _ => return none

def ofTruth : Option Bool → Cell
  | some b => .boolean b
  | none => .null

namespace Operator

def compares? : Operator → Option (Ordering → Bool)
  | equal => some (· == .eq)
  | notEqual => some (· != .eq)
  | less => some (· == .lt)
  | lessEqual => some (· != .gt)
  | greater => some (· == .gt)
  | greaterEqual => some (· != .lt)
  | _ => none

def calculates : Operator → Bool
  | add | subtract | multiply | divide | wholeDivide | modulo => true
  | _ => false

def onIntegers (op : Operator) (t : IntegerType) (m n : Int) :
    Except Fault Cell :=
  let inRange (k : Int) : Except Fault Cell :=
    if t.contains k then .ok (.integer t k)
    else .error (.outOfRange ("Overflow in " ++ t.name))
  match op with
  | add => inRange (m + n)
  | subtract => inRange (m - n)
  | multiply => inRange (m * n)
  | wholeDivide => if n = 0 then .ok .null else inRange (m.tdiv n)
  | modulo => if n = 0 then .ok .null else inRange (m.tmod n)
  | _ => .error (.misuse "No such calculation with integers")

def onDoubles (op : Operator) (x y : Float) : Except Fault Cell :=
  let result (z : Float) : Except Fault Cell := .ok (.double z.toBits.toNat)
  match op with
  | add => result (x + y)
  | subtract => result (x - y)
  | multiply => result (x * y)
  | divide => result (x / y)
  | _ => .error (.misuse "No such calculation with floating-point numbers")

def widest : Nat := 38

def onDecimals (op : Operator) (width scale : Nat) (m : Int)
    (width' scale' : Nat) (n : Int) : Except Fault Cell :=
  let fitting (width scale : Nat) (k : Int) : Except Fault Cell :=
    match Cast.decimal? (min width widest) scale k with
    | some c => .ok c
    | none => .error (.outOfRange "Overflow in DECIMAL")
  let common := max scale scale'
  let whole := max (width - scale) (width' - scale')
  let m' := m * Int.pow 10 (common - scale)
  let n' := n * Int.pow 10 (common - scale')
  match op with
  | add => fitting (whole + common + 1) common (m' + n')
  | subtract => fitting (whole + common + 1) common (m' - n')
  | multiply => fitting (width + width') (scale + scale') (m * n)
  | modulo =>
    if n' = 0 then .ok .null else fitting (whole + common) common (m'.tmod n')
  | _ => .error (.misuse "No such calculation with decimals")

def toFloat (c : Cell) : Except Fault Float := do
  match ← castTo .double c with
  | .double bits => return Float.ofBits bits.toUInt64
  | _ => return 0

def digitCount (n : Int) : Nat :=
  (toString n.natAbs).length

def calculate (op : Operator) (a b : Cell) : Except Fault Cell := do
  match op, ← aligned a b with
  | divide, (a, b) => onDoubles divide (← toFloat a) (← toFloat b)
  | op, (.integer s m, .integer t n) => onIntegers op (s.join t) m n
  | op, (.decimal w s m, .decimal w' s' n) => onDecimals op w s m w' s' n
  | op, (.decimal w s m, .integer _ n) =>
    onDecimals op w s m (digitCount n) 0 n
  | op, (.integer _ m, .decimal w s n) =>
    onDecimals op (digitCount m) 0 m w s n
  | add, (.date d, .integer _ n) => return .date (d + n)
  | subtract, (.date d, .integer _ n) => return .date (d - n)
  | subtract, (.date d, .date e) => return .integer .bigint (d - e)
  | op, (a, b) =>
    match a.ratio?.isSome || a.extreme != 1, b.ratio?.isSome || b.extreme != 1
    with
    | true, true => onDoubles op (← toFloat a) (← toFloat b)
    | _, _ => throw (.misuse "No such calculation with these types")

def apply (op : Operator) (a b : Cell) : Except Fault Cell := do
  match op with
  | .and =>
    match ← truth? a, ← truth? b with
    | some false, _ => return .boolean false
    | _, some false => return .boolean false
    | some true, some true => return .boolean true
    | _, _ => return .null
  | .or =>
    match ← truth? a, ← truth? b with
    | some true, _ => return .boolean true
    | _, some true => return .boolean true
    | some false, some false => return .boolean false
    | _, _ => return .null
  | op =>
    if a == .null || b == .null then return .null
    else if op = .concat then
      return .text (Cast.shown a ++ Cast.shown b)
    else
      match op.compares? with
      | some holds =>
        let (a, b) ← aligned a b
        return .boolean (holds (a.compare b))
      | none => calculate op a b

def type (op : Operator) (s t : DataType) : DataType :=
  if op = .concat then .varchar
  else if !op.calculates then .boolean
  else if op = .divide then .double
  else
    match s, t with
    | .integer i, .integer j => .integer (i.join j)
    | .decimal w s, .decimal w' s' => .decimal (max w w') (max s s')
    | .decimal w s, .integer _ => .decimal w s
    | .integer _, .decimal w s => .decimal w s
    | .date, .integer _ => .date
    | .varchar, t => t
    | s, .varchar => s
    | _, _ => .double

end Operator

end SchemaLedger.Engine
