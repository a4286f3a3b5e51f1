import SchemaLedger.Database.Object
import SchemaLedger.Engine.Cell
/-!
# Statements

What a script is made of, once it is read: statements with the expressions and
queries in them. Names are kept as they are written; what they stand for is
found out when a statement is executed.
-/

namespace SchemaLedger.Engine

/-- A name with what stands in front of it, outermost first. -/
abbrev Path := List String

inductive TypeExpr where
  | named (path : Path) (modifiers : List Nat)
  | enum (labels : List String)
  | list (element : TypeExpr)
  | array (element : TypeExpr) (size : Nat)
  | struct (fields : List (String × TypeExpr))
  | map (key value : TypeExpr)
  | union (members : List (String × TypeExpr))
  deriving Repr, Inhabited

inductive Operator where
  | or
  | and
  | equal
  | notEqual
  | less
  | lessEqual
  | greater
  | greaterEqual
  | concat
  | add
  | subtract
  | multiply
  | divide
  | wholeDivide
  | modulo
  deriving DecidableEq, Repr

inductive Exp where
  | constant (c : Cell)
  | column (path : Path)
  | parameter (index : Nat)
  /-- The default of the column that a value is given for. -/
  | default
  | cast (lenient : Bool) (e : Exp) (t : TypeExpr)
  | negate (e : Exp)
  | not (e : Exp)
  | isNull (e : Exp)
  | binary (op : Operator) (a b : Exp)
  | oneOf (e : Exp) (items : List Exp)
  | choice (cases : List (Exp × Exp)) (otherwise : Exp)
  | call (path : Path) (args : List Exp)
  | countRows
  deriving Repr, Inhabited

inductive Item where
  | all
  | value (e : Exp) (name : Option String)
  deriving Repr, Inhabited

structure OrderKey where
  key : Exp
  descending : Bool
  nullsFirst : Bool
  deriving Repr, Inhabited

mutual

inductive Query where
  | select (distinct : Bool) (items : List Item) (origin : Origin)
      (condition : Option Exp) (order : List OrderKey)
      (limit offset : Option Exp)
  | values (rows : List (List Exp))

inductive Origin where
  /-- A single row without columns. -/
  | nothing
  | relation (path : Path) (label : Option String)
  | call (path : Path) (args : List Exp) (label : Option String)
  | nested (q : Query) (label : Option String)

end

instance : Inhabited Query := ⟨.values []⟩
instance : Inhabited Origin := ⟨.nothing⟩

structure ColumnDef where
  name : String
  type : TypeExpr
  notNull : Bool := false
  key : Bool := false
  unique : Bool := false
  default : Option Exp := none
  /-- A table and columns of it that values of this one must be found in. -/
  references : Option (Path × List String) := none
  deriving Inhabited

inductive Constraint where
  | key (columns : List String)
  | unique (columns : List String)
  | foreignKey (columns : List String) (parent : Path)
      (parentColumns : List String)
  | check (condition : Exp)
  deriving Inhabited

inductive MacroBody where
  | value (e : Exp)
  | rows (q : Query)

/-- What creating something does when it is there already. -/
inductive OnConflict where
  | refuse
  | keep
  | replace
  deriving DecidableEq, Repr

inductive Alteration where
  | addColumn (c : ColumnDef) (keep : Bool)
  | dropColumn (name : String) (lenient : Bool)
  | renameColumn (old new : String)
  | rename (new : String)

inductive Statement where
  | createTable (temporary : Bool) (conflict : OnConflict) (name : Path)
      (columns : List ColumnDef) (constraints : List Constraint)
  | createTableAs (temporary : Bool) (conflict : OnConflict) (name : Path)
      (q : Query)
  | createView (temporary : Bool) (conflict : OnConflict) (name : Path)
      (columns : List String) (q : Query)
  | createSchema (conflict : OnConflict) (name : Path)
  | createSequence (temporary : Bool) (conflict : OnConflict) (name : Path)
      (start increment : Int)
  | createType (temporary : Bool) (conflict : OnConflict) (name : Path)
      (t : TypeExpr)
  | createMacro (temporary : Bool) (conflict : OnConflict) (name : Path)
      (params : List String) (body : MacroBody)
  | alter (name : Path) (lenient : Bool) (change : Alteration)
  | drop (kind : ObjectKind) (lenient : Bool) (name : Path) (cascade : Bool)
  | insert (name : Path) (columns : List String) (rows : Query)
  | insertDefaults (name : Path)
  | update (name : Path) (changes : List (String × Exp))
      (condition : Option Exp)
  | delete (name : Path) (condition : Option Exp)
  | query (q : Query)
  | begin
  | commit
  | rollback

end SchemaLedger.Engine
