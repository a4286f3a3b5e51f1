import SchemaLedger.Engine.Statement
import SchemaLedger.Engine.Token
/-!
# The grammar of SQL

Statements are read from tokens by descent. Every part takes tokens from the
front or refuses, and a script is refused as a whole if any part of it is. How
deep the parts may be nested is limited by the number of tokens there are.
-/

namespace SchemaLedger.Engine

/-- The tokens that are left, and how many parameters have been met. -/
structure Unread where
  tokens : List Token
  parameters : Nat := 0

abbrev Grammar := StateT Unread Option

namespace Grammar

/-- The words that cannot name anything unless they are quoted. -/
def reserved : List String :=
  ["all", "analyse", "analyze", "and", "any", "array", "as", "asc",
    "asymmetric", "both", "case", "cast", "check", "collate", "column",
    "constraint", "create", "default", "deferrable", "desc", "describe",
    "distinct", "do", "else", "end", "except", "false", "fetch", "for",
    "foreign", "from", "group", "having", "in", "initially", "intersect",
    "into", "lambda", "lateral", "leading", "limit", "not", "null", "offset",
    "on", "only", "or", "order", "pivot", "placing", "primary", "qualify",
    "references", "returning", "select", "show", "some", "summarize",
    "symmetric", "table", "then", "to", "trailing", "true", "union", "unique",
    "unpivot", "using", "variadic", "when", "where", "window", "with"]

def peek : Grammar (Option Token) := do
  return (← get).tokens.head?

def take : Grammar Token := do
  match (← get).tokens with
  | [] => failure
  | t :: rest =>
    modify fun s => { s with tokens := rest }
    return t

def refuse {α : Type} : Grammar α := failure

def symbol? (s : String) : Grammar Bool := do
  if (← peek) == some (.symbol s) then
    let _ ← take
    return true
  else
    return false

def symbol (s : String) : Grammar Unit := do
  if !(← symbol? s) then refuse

/-- Take the next token if it is this word, given in lower case. -/
def word? (w : String) : Grammar Bool := do
  if (← peek).any (·.isWord w) then
    let _ ← take
    return true
  else
    return false

def wordAmong? (ws : List String) : Grammar Bool := do
  if (← peek).any fun t => ws.any t.isWord then
    let _ ← take
    return true
  else
    return false

def word (w : String) : Grammar Unit := do
  if !(← word? w) then refuse

def words? (ws : List String) : Grammar Bool := do
  let next := (← get).tokens.take ws.length
  if next.length = ws.length
      && (next.zip ws).all fun (t, w) => t.isWord w then
    modify fun s => { s with tokens := s.tokens.drop ws.length }
    return true
  else
    return false

def nameOf? : Token → Option String
  | .name s => some s
  | .word s => if reserved.contains s.toLower then none else some s
  | _ => none

def name : Grammar String := do
  match nameOf? (← take) with
  | some s => return s
  | none => refuse

def name? : Grammar (Option String) := do
  match (← peek).bind nameOf? with
  | some s =>
    let _ ← take
    return some s
  | none => return none

/-- A name behind a point, which may be a reserved word. -/
def anyName : Grammar String := do
  match ← take with
  | .name s => return s
  | .word s => return s
  | _ => refuse

def pathFrom : Nat → Path → Grammar Path
  | 0, _ => refuse
  | fuel + 1, front => do
    if ← symbol? "." then
      let next ← anyName
      pathFrom fuel (front ++ [next])
    else
      return front

def path : Grammar Path := do
  let first ← name
  pathFrom 8 [first]

def text : Grammar String := do
  match ← take with
  | .text s => return s
  | _ => refuse

def wholeOf? (s : String) : Option Nat :=
  if s.toList.all Char.isDigit && s ≠ "" then
    some (SignedDecimal.ofDigits s.toList)
  else none

def whole : Grammar Nat := do
  match ← take with
  | .number s =>
    match wholeOf? s with
    | some n => return n
    | none => refuse
  | _ => refuse

def signedWhole : Grammar Int := do
  if ← symbol? "-" then return -(← whole : Int)
  else return (← whole : Int)

def commas {α : Type} : Nat → Grammar α → Grammar (List α)
  | 0, _ => refuse
  | fuel + 1, part => do
    let first ← part
    if ← symbol? "," then return first :: (← commas fuel part)
    else return [first]

/-- Parts in round brackets with commas between them, perhaps none. -/
def bracketed {α : Type} (fuel : Nat) (part : Grammar α) :
    Grammar (List α) := do
  symbol "("
  if ← symbol? ")" then return []
  else
    let parts ← commas fuel part
    symbol ")"
    return parts

def names (fuel : Nat) : Grammar (List String) := do
  symbol "("
  let ns ← commas fuel name
  symbol ")"
  return ns

/-- The constant that a number is: an integer of the first type it fits, a
decimal with its own digits, or a floating-point number if it has a power of
ten. -/
def numberOf? (s : String) : Option Cell :=
  match wholeOf? s with
  | some n =>
    match [IntegerType.integer, .bigint, .hugeint, .uhugeint].find?
        (·.contains n) with
    | some t => some (.integer t n)
    | none => some (.double (Nearest.ofDecimal .double ⟨false, n, 0⟩))
  | none =>
    (SignedDecimal.read? s.toList).bind fun d =>
      if s.toList.contains 'e' then
        some (.double (Nearest.ofDecimal .double d))
      else
        let scale := (-d.exponent).toNat
        let width := max (s.toList.filter Char.isDigit).length 1
        if width ≤ 38 then some (.decimal width scale d.digits)
        else some (.double (Nearest.ofDecimal .double d))

/-- A type without the brackets behind it. -/
def simpleType (typeOf : Grammar TypeExpr) (fuel : Nat) :
    Grammar TypeExpr := do
  let field : Grammar (String × TypeExpr) := do
    let n ← name
    let t ← typeOf
    return (n, t)
  let p ← path
  match p.map String.toLower with
  | ["double"] =>
    let _ ← word? "precision"
    return .named ["double"] []
  | ["character"] =>
    let _ ← word? "varying"
    if (← peek) == some (.symbol "(") then
      let _ ← bracketed fuel whole
    return .named ["varchar"] []
  | ["enum"] => return .enum (← bracketed fuel text)
  | ["struct"] | ["row"] => return .struct (← bracketed fuel field)
  | ["union"] => return .union (← bracketed fuel field)
  | ["map"] =>
    match ← bracketed fuel typeOf with
    | [k, v] => return .map k v
    | _ => refuse
  | _ =>
    let modifiers ←
      if (← peek) == some (.symbol "(") then bracketed fuel whole else pure []
    if ← words? ["with", "time", "zone"] then
      return .named (p.map fun s => s ++ "tz") modifiers
    else
      let _ ← words? ["without", "time", "zone"]
      return .named p modifiers

def typeSuffix : Nat → TypeExpr → Grammar TypeExpr
  | 0, _ => refuse
  | fuel + 1, t => do
    if ← symbol? "[" then
      if ← symbol? "]" then typeSuffix fuel (.list t)
      else
        let size ← whole
        symbol "]"
        typeSuffix fuel (.array t size)
    else if ← word? "array" then typeSuffix fuel (.list t)
    else
      return t

def typeExpr : Nat → Grammar TypeExpr
  | 0 => refuse
  | fuel + 1 => do
    if (← peek).any (·.isWord "union") then
      -- the word is reserved everywhere else
      let _ ← take
      let members ← bracketed fuel do
        let n ← name
        let t ← typeExpr fuel
        return (n, t)
      typeSuffix fuel (.union members)
    else
      let t ← simpleType (typeExpr fuel) fuel
      typeSuffix fuel t

/-- How strongly an operator binds, and what it is. -/
def operatorOf? : Token → Option (Nat × Operator)
  | .symbol "=" | .symbol "==" => some (3, .equal)
  | .symbol "<>" | .symbol "!=" => some (3, .notEqual)
  | .symbol "<" => some (3, .less)
  | .symbol "<=" => some (3, .lessEqual)
  | .symbol ">" => some (3, .greater)
  | .symbol ">=" => some (3, .greaterEqual)
  | .symbol "||" => some (5, .concat)
  | .symbol "+" => some (6, .add)
  | .symbol "-" => some (6, .subtract)
  | .symbol "*" => some (7, .multiply)
  | .symbol "/" => some (7, .divide)
  | .symbol "//" => some (7, .wholeDivide)
  | .symbol "%" => some (7, .modulo)
  | t =>
    if t.isWord "or" then some (0, .or)
    else if t.isWord "and" then some (1, .and)
    else none

def testLevel : Nat := 4

mutual

/-- An expression of operators that bind at least as strongly as `level`. -/
def expAt : Nat → Nat → Grammar Exp
  | 0, _ => refuse
  | fuel + 1, level => do
    let negated ← if level ≤ 2 then word? "not" else pure false
    let first ←
      if negated then pure (Exp.not (← expAt fuel 3)) else unary fuel
    operators fuel level first

def operators : Nat → Nat → Exp → Grammar Exp
  | 0, _, _ => refuse
  | fuel + 1, level, left => do
    match (← peek).bind operatorOf? with
    | some (strength, op) =>
      if level ≤ strength then
        let _ ← take
        let right ← expAt fuel (strength + 1)
        operators fuel level (.binary op left right)
      else
        return left
    | none =>
      if level ≤ testLevel then
        match ← test? fuel left with
        | some tested => operators fuel level tested
        | none => return left
      else
        return left

/-- A test of a value that is written behind it. -/
def test? : Nat → Exp → Grammar (Option Exp)
  | 0, _ => refuse
  | fuel + 1, left => do
    if ← word? "is" then
      if ← words? ["not", "null"] then return some (.not (.isNull left))
      else
        word "null"
        return some (.isNull left)
    else if ← word? "isnull" then return some (.isNull left)
    else if ← word? "notnull" then return some (.not (.isNull left))
    else
      let negated ← words? ["not", "in"]
      let among ← if negated then pure true else word? "in"
      if among then
        let items ← bracketed fuel (expAt fuel 0)
        let e := Exp.oneOf left items
        return some (if negated then .not e else e)
      else
        let negated ← words? ["not", "between"]
        let between ← if negated then pure true else word? "between"
        if between then
          let low ← expAt fuel 5
          word "and"
          let high ← expAt fuel 5
          let e := Exp.binary .and (.binary .greaterEqual left low)
            (.binary .lessEqual left high)
          return some (if negated then .not e else e)
        else
          return none

def unary : Nat → Grammar Exp
  | 0 => refuse
  | fuel + 1 => do
    if ← symbol? "-" then return .negate (← unary fuel)
    else if ← symbol? "+" then unary fuel
    else
      let e ← primary fuel
      casts fuel e

def casts : Nat → Exp → Grammar Exp
  | 0, _ => refuse
  | fuel + 1, e => do
    if ← symbol? "::" then
      let t ← typeExpr fuel
      casts fuel (.cast false e t)
    else
      return e

def castCall : Nat → Bool → Grammar Exp
  | 0, _ => refuse
  | fuel + 1, lenient => do
    symbol "("
    let e ← expAt fuel 0
    word "as"
    let t ← typeExpr fuel
    symbol ")"
    return .cast lenient e t

def cases : Nat → Option Exp → Grammar (List (Exp × Exp))
  | 0, _ => refuse
  | fuel + 1, subject => do
    if ← word? "when" then
      let condition ← expAt fuel 0
      word "then"
      let result ← expAt fuel 0
      let condition :=
        match subject with
        | some e => Exp.binary .equal e condition
        | none => condition
      return (condition, result) :: (← cases fuel subject)
    else
      return []

def primary : Nat → Grammar Exp
  | 0 => refuse
  | fuel + 1 => do
    match ← peek with
    | some (.number s) =>
      let _ ← take
      match numberOf? s with
      | some c => return .constant c
      | none => refuse
    | some (.text s) =>
      let _ ← take
      return .constant (.text s)
    | some (.symbol "?") =>
      let _ ← take
      let index := (← get).parameters
      modify fun s => { s with parameters := index + 1 }
      return .parameter index
    | some (.symbol "$") =>
      let _ ← take
      let n ← whole
      if n = 0 then refuse
      modify fun s => { s with parameters := max s.parameters n }
      return .parameter (n - 1)
    | some (.symbol "(") =>
      let _ ← take
      let e ← expAt fuel 0
      symbol ")"
      return e
    | some (.symbol "[") =>
      let _ ← take
      if ← symbol? "]" then return .call ["list_value"] []
      let items ← commas fuel (expAt fuel 0)
      symbol "]"
      return .call ["list_value"] items
    | _ =>
      if ← word? "null" then return .constant .null
      else if ← word? "true" then return .constant (.boolean true)
      else if ← word? "false" then return .constant (.boolean false)
      else if ← word? "default" then return .default
      else if ← word? "cast" then castCall fuel false
      else if ← word? "try_cast" then castCall fuel true
      else if ← word? "case" then
        let subject ←
          if (← peek).any (·.isWord "when") then pure none
          else pure (some (← expAt fuel 0))
        let cs ← cases fuel subject
        if cs.isEmpty then refuse
        let otherwise ←
          if ← word? "else" then expAt fuel 0 else pure (.constant .null)
        word "end"
        return .choice cs otherwise
      else named fuel

/-- A column, a call, or a text with the name of its type in front. -/
def named : Nat → Grammar Exp
  | 0 => refuse
  | fuel + 1 => do
    let p ← path
    if ← symbol? "(" then
      if ← symbol? "*" then
        symbol ")"
        if p.map String.toLower == ["count"] then return .countRows else refuse
      else if ← symbol? ")" then
        if p.map String.toLower == ["count"] then return .countRows
        else return .call p []
      else
        let args ← commas fuel (expAt fuel 0)
        symbol ")"
        return .call p args
    else
      match ← peek with
      | some (.text s) =>
        if p.length = 1 then
          let _ ← take
          return .cast false (.constant (.text s)) (.named p [])
        else refuse
      | _ => return .column p

end

def exp (fuel : Nat) : Grammar Exp :=
  expAt fuel 0

/-- A name that something is given, `as` in front of it being optional. -/
def label? : Grammar (Option String) := do
  if ← word? "as" then return some (← anyName)
  else name?

def item (fuel : Nat) : Grammar Item := do
  if ← symbol? "*" then return .all
  else
    let e ← exp fuel
    let n ← label?
    return .value e n

def orderKey (fuel : Nat) : Grammar OrderKey := do
  let key ← exp fuel
  let descending ← word? "desc"
  if !descending then
    let _ ← word? "asc"
  let nullsFirst ← words? ["nulls", "first"]
  if !nullsFirst then
    let _ ← words? ["nulls", "last"]
  return ⟨key, descending, nullsFirst⟩

def after? {α : Type} (w : String) (part : Grammar α) :
    Grammar (Option α) := do
  if ← word? w then return some (← part) else return none

mutual

def query : Nat → Grammar Query
  | 0 => refuse
  | fuel + 1 => do
    if ← symbol? "(" then
      let q ← query fuel
      symbol ")"
      return q
    else if ← word? "values" then
      return .values (← commas fuel (bracketed fuel (exp fuel)))
    else
      word "select"
      let distinct ← word? "distinct"
      let items ← commas fuel (item fuel)
      let o ← if ← word? "from" then origin fuel else pure .nothing
      let condition ← after? "where" (exp fuel)
      let order ←
        if ← words? ["order", "by"] then commas fuel (orderKey fuel)
        else pure []
      let limit ← after? "limit" (exp fuel)
      let offset ← after? "offset" (exp fuel)
      return .select distinct items o condition order limit offset

def origin : Nat → Grammar Origin
  | 0 => refuse
  | fuel + 1 => do
    if ← symbol? "(" then
      let q ← query fuel
      symbol ")"
      return .nested q (← label?)
    else
      let p ← path
      if (← peek) == some (.symbol "(") then
        let args ← bracketed fuel (exp fuel)
        return .call p args (← label?)
      else
        return .relation p (← label?)

end

def reference (fuel : Nat) : Grammar (Path × List String) := do
  let parent ← path
  let columns ←
    if (← peek) == some (.symbol "(") then names fuel else pure []
  return (parent, columns)

def columnConditions : Nat → ColumnDef → Grammar ColumnDef
  | 0, _ => refuse
  | fuel + 1, c => do
    if ← words? ["not", "null"] then
      columnConditions fuel { c with notNull := true }
    else if ← word? "null" then columnConditions fuel c
    else if ← words? ["primary", "key"] then
      columnConditions fuel { c with key := true }
    else if ← word? "unique" then
      columnConditions fuel { c with unique := true }
    else if ← word? "default" then
      let e ← expAt fuel 5
      columnConditions fuel { c with default := some e }
    else if ← word? "references" then
      let r ← reference fuel
      columnConditions fuel { c with references := some r }
    else
      return c

def columnDef (fuel : Nat) : Grammar ColumnDef := do
  let n ← name
  let t ← typeExpr fuel
  columnConditions fuel { name := n, type := t }

def constraint? (fuel : Nat) : Grammar (Option Constraint) := do
  let isNamed ← word? "constraint"
  if isNamed then
    let _ ← name
  if ← words? ["primary", "key"] then return some (.key (← names fuel))
  else if ← word? "unique" then return some (.unique (← names fuel))
  else if ← words? ["foreign", "key"] then
    let columns ← names fuel
    word "references"
    let (parent, parentColumns) ← reference fuel
    return some (.foreignKey columns parent parentColumns)
  else if ← word? "check" then
    symbol "("
    let e ← exp fuel
    symbol ")"
    return some (.check e)
  else if isNamed then refuse
  else return none

def tableLine (fuel : Nat) : Grammar (ColumnDef ⊕ Constraint) := do
  match ← constraint? fuel with
  | some c => return .inr c
  | none => return .inl (← columnDef fuel)

def unlessExists : Grammar Bool :=
  words? ["if", "not", "exists"]

def conflict (replacing : Bool) : Grammar OnConflict := do
  if ← unlessExists then
    if replacing then refuse else return .keep
  else
    return if replacing then .replace else .refuse

def createTable (fuel : Nat) (temporary replacing : Bool) :
    Grammar Statement := do
  let c ← conflict replacing
  let p ← path
  if ← word? "as" then
    return .createTableAs temporary c p (← query fuel)
  else
    let lines ← bracketed fuel (tableLine fuel)
    let columns := lines.filterMap fun l =>
      match l with
      | .inl column => some column
      | .inr _ => none
    let constraints := lines.filterMap fun l =>
      match l with
      | .inl _ => none
      | .inr constraint => some constraint
    if columns.isEmpty then refuse
    return .createTable temporary c p columns constraints

def sequenceOptions : Nat → Int → Int → Grammar (Int × Int)
  | 0, _, _ => refuse
  | fuel + 1, start, increment => do
    if ← word? "start" then
      let _ ← word? "with"
      let n ← signedWhole
      sequenceOptions fuel n increment
    else if ← word? "increment" then
      let _ ← word? "by"
      let n ← signedWhole
      sequenceOptions fuel start n
    else if ← wordAmong? ["minvalue", "maxvalue"] then
      let _ ← signedWhole
      sequenceOptions fuel start increment
    else if ← word? "no" then
      let _ ← name
      sequenceOptions fuel start increment
    else if ← word? "cycle" then sequenceOptions fuel start increment
    else return (start, increment)

def create (fuel : Nat) : Grammar Statement := do
  let replacing ← words? ["or", "replace"]
  let temporary ← wordAmong? ["temp", "temporary"]
  if ← word? "table" then createTable fuel temporary replacing
  else if ← word? "view" then
    let c ← conflict replacing
    let p ← path
    let columns ←
      if (← peek) == some (.symbol "(") then names fuel else pure []
    word "as"
    return .createView temporary c p columns (← query fuel)
  else if ← word? "schema" then
    if temporary then refuse
    let c ← conflict replacing
    return .createSchema c (← path)
  else if ← word? "sequence" then
    let c ← conflict replacing
    let p ← path
    let (start, increment) ← sequenceOptions fuel 1 1
    return .createSequence temporary c p start increment
  else if ← word? "type" then
    let c ← conflict replacing
    let p ← path
    word "as"
    return .createType temporary c p (← typeExpr fuel)
  else if ← wordAmong? ["macro", "function"] then
    let c ← conflict replacing
    let p ← path
    let params ← bracketed fuel name
    word "as"
    if ← word? "table" then
      return .createMacro temporary c p params (.rows (← query fuel))
    else
      return .createMacro temporary c p params (.value (← exp fuel))
  else refuse

def drop : Grammar Statement := do
  let kind ←
    if ← word? "table" then pure ObjectKind.table
    else if ← word? "view" then pure .view
    else if ← word? "schema" then pure .schema
    else if ← word? "sequence" then pure .sequence
    else if ← word? "type" then pure .type
    else if ← wordAmong? ["macro", "function"] then
      if ← word? "table" then pure .tableMacro else pure .scalarMacro
    else refuse
  let lenient ← words? ["if", "exists"]
  let p ← path
  let cascade ← word? "cascade"
  if !cascade then
    let _ ← word? "restrict"
  return .drop kind lenient p cascade

def alter (fuel : Nat) : Grammar Statement := do
  let lenient ← words? ["if", "exists"]
  let p ← path
  if ← word? "add" then
    let _ ← word? "column"
    let keep ← unlessExists
    return .alter p lenient (.addColumn (← columnDef fuel) keep)
  else if ← word? "drop" then
    let _ ← word? "column"
    let missing ← words? ["if", "exists"]
    let c ← name
    let _ ← word? "cascade"
    return .alter p lenient (.dropColumn c missing)
  else if ← word? "rename" then
    if ← word? "to" then return .alter p lenient (.rename (← name))
    else
      let _ ← word? "column"
      let old ← name
      word "to"
      return .alter p lenient (.renameColumn old (← name))
  else refuse

def insert (fuel : Nat) : Grammar Statement := do
  word "into"
  let p ← path
  if ← words? ["default", "values"] then return .insertDefaults p
  else
    let before ← get
    let isList :=
      match before.tokens with
      | .symbol "(" :: t :: _ => !(t.isWord "select" || t.isWord "values")
      | _ => false
    let columns ← if isList then names fuel else pure []
    return .insert p columns (← query fuel)

def change (fuel : Nat) : Grammar (String × Exp) := do
  let c ← name
  symbol "="
  return (c, ← exp fuel)

def transactionWord : Grammar Unit := do
  if !(← word? "transaction") then
    let _ ← word? "work"

def statement (fuel : Nat) : Grammar Statement := do
  if ← word? "create" then create fuel
  else if ← word? "drop" then drop
  else if ← word? "alter" then
    word "table"
    alter fuel
  else if ← word? "insert" then insert fuel
  else if ← word? "update" then
    let p ← path
    word "set"
    let changes ← commas fuel (change fuel)
    let condition ← after? "where" (exp fuel)
    return .update p changes condition
  else if ← word? "delete" then
    word "from"
    let p ← path
    let condition ← after? "where" (exp fuel)
    return .delete p condition
  else if ← word? "truncate" then
    let _ ← word? "table"
    return .delete (← path) none
  else if ← word? "begin" then
    transactionWord
    return .begin
  else if ← word? "start" then
    word "transaction"
    return .begin
  else if ← wordAmong? ["commit", "end"] then
    transactionWord
    return .commit
  else if ← wordAmong? ["rollback", "abort"] then
    transactionWord
    return .rollback
  else
    return .query (← query fuel)

/-- Statements with semicolons between them, each with the number of its
parameters. -/
def statements : Nat → Grammar (List (Statement × Nat))
  | 0 => refuse
  | fuel + 1 => do
    if (← peek).isNone then return []
    else if ← symbol? ";" then statements fuel
    else
      modify fun s => { s with parameters := 0 }
      let st ← statement (fuel + 1)
      let parameters := (← get).parameters
      if (← peek).isSome then symbol ";"
      return (st, parameters) :: (← statements fuel)

def read? (sql : String) : Option (List (Statement × Nat)) := do
  let tokens ← Token.ofText? sql
  let (parts, _) ← (statements (8 * tokens.length + 8)).run { tokens }
  some parts

end Grammar

end SchemaLedger.Engine
