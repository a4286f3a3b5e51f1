import SchemaLedger.Engine.Builtin
import SchemaLedger.Engine.Catalog
/-!
# Terms

A term is an expression in which every name has been looked up: columns are
positions in a row, macros have been replaced by what they stand for, and types
are known. `Term.eval` is its value at a row. Only sequences are changed by
that.
-/

namespace SchemaLedger.Engine

/-- An expression in which every name has been looked up. -/
inductive Term where
  | constant (c : Cell)
  | column (index : Nat) (type : DataType)
  | parameter (index : Nat)
  | cast (lenient : Bool) (t : DataType) (e : Term)
  | negate (e : Term)
  | not (e : Term)
  | isNull (e : Term)
  | binary (op : Operator) (a b : Term)
  | oneOf (e : Term) (items : List Term)
  | choice (cases : List (Term × Term)) (otherwise : Term)
  | call (f : Builtin) (args : List Term)
  | next (place : Place) (name : String)
  /-- The number a sequence has given out last. -/
  | last (place : Place) (name : String)
  | aggregate (f : Aggregate) (e : Term)
  deriving Inhabited

namespace Term

mutual

def type? : Term → Option DataType
  | constant c => c.type?
  | column _ t => some t
  | parameter _ => none
  | cast _ t _ => some t
  | negate e => type? e
  | not _ => some .boolean
  | isNull _ => some .boolean
  | binary op a b =>
    match type? a, type? b with
    | some s, some t => some (op.type s t)
    | some s, none => some (op.type s s)
    | none, some t => some (op.type t t)
    | none, none => none
  | oneOf .. => some .boolean
  | choice cases otherwise => (typeOfCases? cases).or (type? otherwise)
  | call f args => some (f.type (typesOf args))
  | next .. => some (.integer .bigint)
  | last .. => some (.integer .bigint)
  | aggregate f e => (type? e).map f.type

def typesOf : List Term → List DataType
  | [] => []
  | e :: es => (type? e).toList ++ typesOf es

def typeOfCases? : List (Term × Term) → Option DataType
  | [] => none
  | (_, e) :: cases => (type? e).or (typeOfCases? cases)

end

mutual

def parts : Term → List Term
  | cast l t e => cast l t e :: parts e
  | negate e => negate e :: parts e
  | not e => not e :: parts e
  | isNull e => isNull e :: parts e
  | binary op a b => binary op a b :: (parts a ++ parts b)
  | oneOf e items => oneOf e items :: (parts e ++ partsOfAll items)
  | choice cases e => choice cases e :: (partsOfCases cases ++ parts e)
  | call f args => call f args :: partsOfAll args
  | aggregate f e => aggregate f e :: parts e
  | e => [e]

def partsOfAll : List Term → List Term
  | [] => []
  | e :: es => parts e ++ partsOfAll es

def partsOfCases : List (Term × Term) → List Term
  | [] => []
  | (a, b) :: cases => parts a ++ parts b ++ partsOfCases cases

end

def hasAggregate (e : Term) : Bool :=
  e.parts.any fun part =>
    match part with
    | aggregate .. => true
    | _ => false

def hasColumn (e : Term) : Bool :=
  e.parts.any fun part =>
    match part with
    | column .. => true
    | _ => false

def sequences (e : Term) : List (Place × String) :=
  e.parts.filterMap fun part =>
    match part with
    | next place name => some (place, name)
    | _ => none

def negated : Cell → Except Fault Cell
  | .null => .ok .null
  | .integer t n =>
    if t.contains (-n) then .ok (.integer t (-n))
    else .error (.outOfRange ("Overflow in " ++ t.name))
  | .decimal width scale n => .ok (.decimal width scale (-n))
  | .interval months days micros => .ok (.interval (-months) (-days) (-micros))
  | c => do
    let x ← Operator.toFloat c
    return .double (-x).toBits.toNat

def advance (place : Place) (name : String) : Work Cell := do
  match ((← get).get place.temporary).find? .sequence place.schema name with
  | some { definition := .sequence number step _, .. } =>
    Work.modify place.temporary fun c =>
      c.replace place.schema name (.sequence (number + step) step (some number))
    return .integer .bigint number
  | _ => throw (.missing .sequence name)

def current (place : Place) (name : String) : Work Cell := do
  match ((← get).get place.temporary).find? .sequence place.schema name with
  | some { definition := .sequence _ _ (some number), .. } =>
    return .integer .bigint number
  | some _ =>
    throw (.misuse "currval: sequence is not yet defined in this session")
  | none => throw (.missing .sequence name)

/-- A cell as one of a type, or nothing if it is not one and that is all
right. -/
def castCell (lenient : Bool) (t : DataType) (c : Cell) : Except Fault Cell :=
  if lenient then .ok ((Cast.cast? t c).getD .null) else castTo t c

mutual

/-- The value of a term at a row, with values for the parameters. Aggregates
have no value at a row. -/
def eval (params row : List Cell) : Term → Work Cell
  | constant c => return c
  | column i _ => return row[i]?.getD .null
  | parameter i => return params[i]?.getD .null
  | cast lenient t e => do Work.of (castCell lenient t (← eval params row e))
  | negate e => do Work.of (negated (← eval params row e))
  | not e => do
    return ofTruth ((← Work.of (truth? (← eval params row e))).map (!·))
  | isNull e => do return .boolean ((← eval params row e) == .null)
  | binary op a b => do
    let x ← eval params row a
    let y ← eval params row b
    Work.of (op.apply x y)
  | oneOf e items => do
    let x ← eval params row e
    let ys ← evalAll params row items
    let tests ← ys.mapM fun y => Work.of (Operator.equal.apply x y)
    Work.of (tests.foldlM Operator.or.apply (.boolean false))
  | choice cases otherwise => do
    match ← evalCases params row cases with
    | some c => return c
    | none => eval params row otherwise
  | call f args => do Work.of (f.apply (← evalAll params row args))
  | next place name => advance place name
  | last place name => current place name
  | aggregate .. => throw (.misuse "No aggregate can stand here")

def evalAll (params row : List Cell) : List Term → Work (List Cell)
  | [] => return []
  | e :: es => do
    let c ← eval params row e
    return c :: (← evalAll params row es)

def evalCases (params row : List Cell) :
    List (Term × Term) → Work (Option Cell)
  | [] => return none
  | (condition, result) :: cases => do
    if (← Work.of (truth? (← eval params row condition))) = some true then
      return some (← eval params row result)
    else evalCases params row cases

end

mutual

/-- The term with the value that each aggregate has over these rows. -/
def settled (params : List Cell) (rows : List (List Cell)) :
    Term → Work Term
  | aggregate f e => do
    return constant (← Work.of (f.apply (← rows.mapM fun r => eval params r e)))
  | cast l t e => return cast l t (← settled params rows e)
  | negate e => return negate (← settled params rows e)
  | not e => return not (← settled params rows e)
  | isNull e => return isNull (← settled params rows e)
  | binary op a b =>
    return binary op (← settled params rows a) (← settled params rows b)
  | oneOf e items =>
    return oneOf (← settled params rows e) (← settledAll params rows items)
  | choice cases e =>
    return choice (← settledCases params rows cases) (← settled params rows e)
  | call f args => return call f (← settledAll params rows args)
  | e => return e

def settledAll (params : List Cell) (rows : List (List Cell)) :
    List Term → Work (List Term)
  | [] => return []
  | e :: es =>
    return (← settled params rows e) :: (← settledAll params rows es)

def settledCases (params : List Cell) (rows : List (List Cell)) :
    List (Term × Term) → Work (List (Term × Term))
  | [] => return []
  | (a, b) :: cases =>
    return (← settled params rows a, ← settled params rows b)
      :: (← settledCases params rows cases)

end

end Term

end SchemaLedger.Engine
