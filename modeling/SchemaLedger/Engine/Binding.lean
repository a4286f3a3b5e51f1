import SchemaLedger.Engine.Term
import SchemaLedger.Engine.Token
/-!
# Binding

Binding looks up the names in an expression. A name can be that of a column in
scope or of a parameter of the macro that the expression is the body of.
Macros are expanded on the way, so the depth of an expression includes what its
macros stand for, and it is limited.
-/

namespace SchemaLedger.Engine

/-- A column that rows have, with the names that can stand in front of its own
one. -/
structure HeaderColumn where
  qualifier : List String
  name : String
  type : DataType
  deriving Inhabited

abbrev Header := List HeaderColumn

/-- What names can mean in an expression. -/
structure Scope where
  columns : Header := []
  /-- The parameters of a macro and what they stand for. -/
  given : List (String × Term) := []

def depthLimit : Nat := 1000

def Path.ofText? (s : String) : Option Path := do
  let rec names : List Token → Option Path
    | [t] => name? t |>.map fun n => [n]
    | t :: .symbol "." :: rest => do
      let n ← name? t
      let ns ← names rest
      some (n :: ns)
    | _ => none
  names (← Token.ofText? s)
where
  name? : Token → Option String
    | .word s => some s
    | .name s => some s
    | _ => none

namespace TypeExpr

def named? (path : Path) (modifiers : List Nat) : Work DataType := do
  match path with
  | [name] =>
    match DataType.ofName? name modifiers with
    | some t => return t
    | none => created path
  | _ => created path
where
  created (path : Path) : Work DataType := do
    match ← Work.find .type path with
    | (_, { definition := .type t, .. }) => return t
    | _ => throw (.missing .type (path.getLast?.getD ""))

mutual

def resolve : TypeExpr → Work DataType
  | .named path modifiers => named? path modifiers
  | .enum labels => return .enum labels
  | .list t => return .list (← resolve t)
  | .array t size => return .array (← resolve t) size
  | .struct fields => return .struct (← resolveFields fields)
  | .map k v => return .map (← resolve k) (← resolve v)
  | .union members => return .union (← resolveFields members)

def resolveFields :
    List (String × TypeExpr) → Work (List (String × DataType))
  | [] => return []
  | (name, t) :: fields =>
    return (name, ← resolve t) :: (← resolveFields fields)

end

mutual

def created : TypeExpr → List Path
  | .named [name] modifiers =>
    if (DataType.ofName? name modifiers).isSome then [] else [[name]]
  | .named path _ => [path]
  | .enum _ => []
  | .list t => created t
  | .array t _ => created t
  | .struct fields => createdInFields fields
  | .map k v => created k ++ created v
  | .union members => createdInFields members

def createdInFields : List (String × TypeExpr) → List Path
  | [] => []
  | (_, t) :: fields => created t ++ createdInFields fields

end

end TypeExpr

namespace Scope

def qualifies (names : List String) (c : HeaderColumn) : Bool :=
  (names.map String.toLower).isSuffixOf (c.qualifier.map String.toLower)

def column? (s : Scope) (path : Path) : Option Term :=
  let name := path.getLast?.getD ""
  (s.columns.findIdx? fun c =>
    sameName c.name name && qualifies path.dropLast c).bind fun i =>
      s.columns[i]?.map fun c => .column i c.type

def lookUp (s : Scope) (path : Path) : Except Fault Term :=
  let parameter? : Option Term :=
    match path with
    | [name] => (s.given.find? fun g => sameName g.1 name).map Prod.snd
    | _ => none
  match parameter?.or (s.column? path) with
  | some e => .ok e
  | none => .error (.columnMissing (".".intercalate path))

end Scope

namespace Term

/-- An integer that is written as such takes the type of the other operand if
it is one of its numbers. -/
def adapted (literal other : Term) : Term :=
  match literal, other with
  | constant (.integer _ _), constant (.integer _ _) => literal
  | constant (.integer s n), e =>
    match e.type? with
    | some (.integer t) =>
      if t.contains n then constant (.integer t n)
      else constant (.integer s n)
    | _ => literal
  | e, _ => e

/-- Two operands, numbers among them taking their types from each other. -/
def calculation (op : Operator) (a b : Term) : Term :=
  if op.calculates then binary op (adapted a b) (adapted b a)
  else binary op a b

/-- A term with its sign turned around. Numbers are negative then, of the type
that they have without the sign if that has negative numbers. -/
def opposite : Term → Term
  | constant (.integer t n) =>
    match [t, .integer, .bigint, .hugeint].find? (·.contains (-n)) with
    | some u => constant (.integer u (-n))
    | none => negate (constant (.integer t n))
  | e => negate e

end Term

def sequenceNamed (s : String) : Work (Place × String) := do
  match Path.ofText? s with
  | none => throw .unreadable
  | some path =>
    let (place, e) ← Work.find .sequence path
    return (⟨place.temporary, e.schema⟩, e.name)

def boundCall (path : Path) (args : List Term) : Work Term := do
  match path with
  | [name] =>
    match name.toLower, args with
    | "nextval", [.constant (.text s)] =>
      let (place, sequence) ← sequenceNamed s
      return .next place sequence
    | "currval", [.constant (.text s)] =>
      let (place, sequence) ← sequenceNamed s
      return .last place sequence
    | "current_database", [] => return .constant (.text (← get).name)
    | "current_schema", [] => return .constant (.text Sql.defaultSchema)
    | lower, args =>
      match Aggregate.ofName? lower, args, Builtin.ofName? lower with
      | some f, [e], _ => return .aggregate f e
      | _, args, some f =>
        if f.accepts args.length then return .call f args
        else throw (.misuse ("No function " ++ name ++ " of these arguments"))
      | _, _, none => throw (.functionMissing name)
  | path => throw (.functionMissing (path.getLast?.getD ""))

def Exp.bind : Nat → Scope → Exp → Work Term
  | 0, _, _ => throw (.misuse "Max expression depth limit exceeded")
  | depth + 1, s, e => do
    match e with
    | .constant c => return .constant c
    | .column path => Work.of (s.lookUp path)
    | .parameter i => return .parameter i
    | .default => throw (.misuse "DEFAULT is not allowed here")
    | .cast lenient e t =>
      let e ← bind depth s e
      return .cast lenient (← t.resolve) e
    | .negate e => return (← bind depth s e).opposite
    | .not e => return .not (← bind depth s e)
    | .isNull e => return .isNull (← bind depth s e)
    | .binary op a b =>
      let a ← bind depth s a
      let b ← bind depth s b
      return Term.calculation op a b
    | .oneOf e items =>
      let e ← bind depth s e
      return .oneOf e (← items.mapM (bind depth s))
    | .choice cases otherwise =>
      let cases ← cases.mapM fun (condition, result) => do
        let condition ← bind depth s condition
        return (condition, ← bind depth s result)
      return .choice cases (← bind depth s otherwise)
    | .countRows => return .aggregate .count (.constant (.boolean true))
    | .call path args =>
      let args ← args.mapM (bind depth s)
      match ← Work.find? .scalarMacro path with
      | some (_, { definition := .scalarMacro params body, .. }) =>
        if params.length ≠ args.length then
          throw (.misuse "The macro does not support these arguments")
        bind depth { s with given := params.zip args } body
      | _ => boundCall path args

namespace Term

/-- The term of an expression that no row is needed for. -/
def ofConstant (e : Exp) : Work Term := do
  let e ← e.bind depthLimit {}
  if e.hasAggregate then throw (.misuse "No aggregate can stand here")
  return e

def ofCondition (s : Scope) (e : Exp) : Work Term := do
  let e ← e.bind depthLimit s
  if e.hasAggregate then throw (.misuse "No aggregate can stand here")
  return e

end Term

end SchemaLedger.Engine
