import SchemaLedger.Text.Decimal
import SchemaLedger.Text.Literal
import SchemaLedger.Yaml.Document
/-!
# What a scalar says

A plain scalar is null, a truth value, an integer or a real number if it looks
like one, and otherwise a text, like every quoted scalar. A tag of the
standard takes the choice away.
-/

namespace SchemaLedger.Yaml

inductive Meaning where
  | unit
  | boolean (b : Bool)
  | integer (n : Int)
  /-- A real number, by the bits of its double. -/
  | real (bits : Nat)
  | text (s : String)
  /-- A text that is not what its tag says. -/
  | mistagged (s expected : String)
  deriving DecidableEq, Repr

def readTruth? (s : String) : Option Bool :=
  if ["true", "True", "TRUE"].contains s then some true
  else if ["false", "False", "FALSE"].contains s then some false
  else none

/-- The spellings of null, the empty text apart. -/
def isNull (s : String) : Bool :=
  ["null", "Null", "NULL", "~"].contains s

def ofRadix? (radix : Nat) (digits : List Char) : Option Nat := do
  let values ← digits.mapM hexValue?
  if values.isEmpty || !values.all (· < radix) then none
  else some (values.foldl (fun n d => n * radix + d) 0)

/-- A number without its sign: decimal without needless zeros, or in base
sixteen, eight or two behind a mark. -/
def readMagnitude? : List Char → Option Nat
  | '0' :: 'x' :: digits => ofRadix? 16 digits
  | '0' :: 'o' :: digits => ofRadix? 8 digits
  | '0' :: 'b' :: digits => ofRadix? 2 digits
  | '0' :: _ :: _ => none
  | digits => ofRadix? 10 digits

def readInteger? (s : String) : Option Int :=
  match s.toList with
  | '-' :: rest => (readMagnitude? rest).map fun n => -(n : Int)
  | '+' :: rest => (readMagnitude? rest).map fun n => (n : Int)
  | rest => (readMagnitude? rest).map fun n => (n : Int)

/-- The integers that are told from other numbers: those of 128 bits. -/
def isInteger (n : Int) : Bool :=
  decide (-Int.pow 2 127 ≤ n) && decide (n < Int.pow 2 128)

def undefinedBits : Nat := 0x7FF8000000000000

/-- The real number a text denotes, if it is finite or written with a point in
front as infinite or undefined. -/
def readReal? (s : String) : Option Nat :=
  if [".inf", ".Inf", ".INF", "+.inf", "+.Inf", "+.INF"].contains s then
    some (Nearest.infinity .double false)
  else if ["-.inf", "-.Inf", "-.INF"].contains s then
    some (Nearest.infinity .double true)
  else if [".nan", ".NaN", ".NAN"].contains s then some undefinedBits
  else do
    let d ← SignedDecimal.read? s.toList
    let bits := Nearest.ofDecimal .double d
    if Nearest.isFinite .double bits then some bits else none

def isPaddedDigits (s : String) : Bool :=
  match (SignedDecimal.readSign s.toList).2 with
  | '0' :: digits => !digits.isEmpty && digits.all Char.isDigit
  | _ => false

def Meaning.ofPlain (s : String) : Meaning :=
  if s = "" || isNull s then .unit
  else
    match readTruth? s with
    | some b => .boolean b
    | none =>
      match (readInteger? s).filter isInteger with
      | some n => .integer n
      | none =>
        if isPaddedDigits s then .text s
        else (readReal? s).elim (.text s) .real

def standardTag (name : String) : String :=
  "tag:yaml.org,2002:" ++ name

def Scalar.meaning (s : Scalar) (tag : Option String) : Meaning :=
  let otherwise (m : Option Meaning) (expected : String) : Meaning :=
    m.getD (.mistagged s.text expected)
  match tag with
  | none => if s.style = .plain then .ofPlain s.text else .text s.text
  | some t =>
    if t = standardTag "bool" then
      otherwise ((readTruth? s.text).map .boolean) "a boolean"
    else if t = standardTag "int" then
      otherwise (((readInteger? s.text).filter isInteger).map .integer)
        "an integer"
    else if t = standardTag "float" then
      otherwise ((readReal? s.text).map .real) "a float"
    else if t = standardTag "null" then
      otherwise (if isNull s.text then some .unit else none) "null"
    else if t.startsWith "!" && s.style = .plain then .ofPlain s.text
    else .text s.text

def showReal (bits : Nat) : String :=
  let plain := Shortest.plain .double bits
  if Nearest.isFinite .double bits && !plain.contains '.' then plain ++ ".0"
  else plain

/-- An integer, and where it does not fit 64 bits in how many it does. -/
def showInteger (n : Int) : String :=
  let shown := "integer `" ++ toString n ++ "`"
  if n < -Int.pow 2 63 then shown ++ " as i128"
  else if n < Int.pow 2 64 then shown
  else shown ++ " as u128"

def Meaning.mismatch (m : Meaning) (expected : String) : String :=
  match m with
  | .mistagged s wanted =>
    "invalid value: string " ++ Literal.quote s ++ ", expected " ++ wanted
  | .unit => "invalid type: unit value, expected " ++ expected
  | .boolean b =>
    "invalid type: boolean `" ++ toString b ++ "`, expected " ++ expected
  | .integer n => "invalid type: " ++ showInteger n ++ ", expected " ++ expected
  | .real bits =>
    "invalid type: floating point `" ++ showReal bits ++ "`, expected "
      ++ expected
  | .text s =>
    "invalid type: string " ++ Literal.quote s ++ ", expected " ++ expected

def Node.mismatch (n : Node) (expected : String) : String :=
  match n with
  | .scalar s tag => (s.meaning tag).mismatch expected
  | .sequence => "invalid type: sequence, expected " ++ expected
  | .mapping => "invalid type: map, expected " ++ expected
  | .aliasOf _ => "invalid type: alias, expected " ++ expected

/-- The scalar may say what the tag `name` stands for: it is plain, or it is a
literal block with that tag. -/
def Scalar.mayBe (s : Scalar) (tag : Option String) (name : String) : Bool :=
  s.style == .plain || (s.style == .literal && tag == some (standardTag name))

end SchemaLedger.Yaml
