import SchemaLedger.Engine.Operation
/-!
# Built-in functions

The functions that can be called without having been created, and the
aggregates, which make one cell of many rows.
-/

namespace SchemaLedger.Engine

inductive Builtin where
  | lower
  | upper
  | length
  | abs
  | concat
  | coalesce
  | nullIf
  | greatest
  | least
  | list
  deriving DecidableEq, Repr

namespace Builtin

def ofName? (name : String) : Option Builtin :=
  [("lower", lower), ("lcase", lower), ("upper", upper), ("ucase", upper),
    ("length", length), ("len", length), ("strlen", length), ("abs", abs),
    ("concat", concat), ("coalesce", coalesce), ("ifnull", coalesce),
    ("nullif", nullIf), ("greatest", greatest), ("least", least),
    ("list_value", list)].lookup name.toLower

def accepts : Builtin → Nat → Bool
  | lower, n | upper, n | length, n | abs, n => n == 1
  | nullIf, n => n == 2
  | concat, n | coalesce, n | greatest, n | least, n => 1 ≤ n
  | list, _ => true

/-- Apply a function of one argument, unless the argument is absent. -/
def onFirst (args : List Cell) (f : Cell → Except Fault Cell) :
    Except Fault Cell :=
  match args.head? with
  | none | some .null => .ok .null
  | some c => f c

/-- The cell that stands first when cells are put in order. -/
def extremum (wins : Ordering) (cells : List Cell) : Cell :=
  cells.foldl (fun best c =>
    if c == .null then best
    else if best == .null || c.compare best == wins then c
    else best) .null

/-- What a function makes of cells. Case is that of ASCII letters. -/
def apply (f : Builtin) (args : List Cell) : Except Fault Cell :=
  match f with
  | lower => onFirst args fun c => .ok (.text (Cast.shown c).toLower)
  | upper => onFirst args fun c => .ok (.text (Cast.shown c).toUpper)
  | length => onFirst args fun c =>
      match c with
      | .list cells => .ok (.integer .bigint cells.length)
      | c => .ok (.integer .bigint (Cast.shown c).length)
  | abs => onFirst args fun c =>
      match c with
      | .integer t n =>
        if t.contains n.natAbs then .ok (.integer t n.natAbs)
        else .error (.outOfRange ("Overflow in abs of " ++ t.name))
      | .decimal width scale n => .ok (.decimal width scale n.natAbs)
      | c => do
        let x ← Operator.toFloat c
        return .double x.abs.toBits.toNat
  | concat =>
    .ok (.text (String.join ((args.filter (· != .null)).map Cast.shown)))
  | coalesce => .ok ((args.find? (· != .null)).getD .null)
  | nullIf =>
    match args with
    | [a, b] => do
      match ← Operator.equal.apply a b with
      | .boolean true => return .null
      | _ => return a
    | _ => .ok .null
  | greatest => .ok (extremum .gt args)
  | least => .ok (extremum .lt args)
  | list => .ok (.list args)

def type (f : Builtin) (args : List DataType) : DataType :=
  match f with
  | lower | upper | concat => .varchar
  | length => .integer .bigint
  | abs | coalesce | nullIf | greatest | least => args.headD .varchar
  | list => .list (args.headD (.integer .integer))

end Builtin

inductive Aggregate where
  | count
  | max
  | min
  | sum
  | average
  deriving DecidableEq, Repr

namespace Aggregate

def ofName? (name : String) : Option Aggregate :=
  [("count", count), ("max", max), ("min", min), ("sum", sum),
    ("avg", average), ("mean", average)].lookup name.toLower

def total (cells : List Cell) : Except Fault Cell :=
  match cells with
  | [] => .ok .null
  | c :: cs =>
    let wide : Cell → Cell
      | .integer _ n => .integer .hugeint n
      | .boolean b => .integer .hugeint (if b then 1 else 0)
      | c => c
    cs.foldlM (fun sum c => Operator.add.apply sum (wide c)) (wide c)

/-- What an aggregate makes of the cells of a column. Absent ones do not
count. -/
def apply (f : Aggregate) (cells : List Cell) : Except Fault Cell :=
  let present := cells.filter (· != .null)
  match f with
  | count => .ok (.integer .bigint present.length)
  | max => .ok (Builtin.extremum .gt present)
  | min => .ok (Builtin.extremum .lt present)
  | sum => total present
  | average => do
    if present.isEmpty then return .null
    Operator.divide.apply (← total present)
      (.integer .bigint present.length)

def type (f : Aggregate) (t : DataType) : DataType :=
  match f, t with
  | count, _ => .integer .bigint
  | average, _ => .double
  | sum, .integer _ => .integer .hugeint
  | _, t => t

end Aggregate

end SchemaLedger.Engine
