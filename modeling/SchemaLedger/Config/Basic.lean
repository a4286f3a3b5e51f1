import SchemaLedger.InputError
import SchemaLedger.Log
import SchemaLedger.Text.Blank
import SchemaLedger.Text.Integer
import SchemaLedger.Text.Json
/-!
# Configuration

A configuration names the migrations table and says whether scripts are cut
into statements, and how long a statement may be. Each field can be set by an
option, spelled with or without `x-` in front.
-/

namespace SchemaLedger

structure Config where
  /-- The table that holds the version records, perhaps with its schema. -/
  migrationsTable : String := "schema_migrations"
  /-- Cut scripts at each `;` and run the statements one by one. -/
  multiStatement : Bool := false
  /-- The longest statement, in bytes, that is accepted. -/
  multiStatementMaxSize : Int64 := 10485760
  deriving DecidableEq, Repr

namespace Config

def defaultTable : String := "schema_migrations"

/-- The cap used when none, or none that is positive, is given: 10 MiB. -/
def defaultMaxSize : Int64 := 10485760

/-- The configuration with unusable values replaced: a blank table name, and a
cap that is not positive. -/
def normalized (c : Config) : Config :=
  { c with
    migrationsTable :=
      if Blank.trim c.migrationsTable = "" then defaultTable
      else c.migrationsTable
    multiStatementMaxSize :=
      if c.multiStatementMaxSize ≤ 0 then defaultMaxSize
      else c.multiStatementMaxSize }

def normalizationLog (c : Config) : List LogLine :=
  if c.multiStatementMaxSize ≤ 0 then
    [⟨.debug, "multi-statement max size " ++ toString c.multiStatementMaxSize
      ++ " is not positive, using default"⟩]
  else
    []

def statementCap (c : Config) : Nat :=
  if 0 < c.multiStatementMaxSize then c.multiStatementMaxSize.toInt.toNat
  else defaultMaxSize.toInt.toNat

inductive Field where
  | migrationsTable
  | multiStatement
  | multiStatementMaxSize
  deriving DecidableEq, Repr

def Field.key : Field → String
  | migrationsTable => "migrations-table"
  | multiStatement => "multi-statement"
  | multiStatementMaxSize => "multi-statement-max-size"

def Field.ofKey? (key : String) : Option Field :=
  [migrationsTable, multiStatement, multiStatementMaxSize].find? fun f =>
    f.key == key

/-- A text without the given beginning, once. -/
def withoutLead (lead : List Char) (s : List Char) : List Char :=
  if lead.isPrefixOf s then s.drop lead.length else s

/-- The field an option sets. One leading `x-` does not matter. -/
def Field.ofOption? (key : String) : Option Field :=
  Field.ofKey? (String.ofList (withoutLead ['x', '-'] key.toList))

def readBool? (value : String) : Option Bool :=
  if value = "true" then some true
  else if value = "false" then some false
  else none

def set (c : Config) (key value : String) : Field → Except InputError Config
  | .migrationsTable => .ok { c with migrationsTable := value }
  | .multiStatement =>
    match readBool? value with
    | some b => .ok { c with multiStatement := b }
    | none => .error (.optionInvalid key value "expected 'true' or 'false'")
  | .multiStatementMaxSize =>
    match Integer.read value with
    | .ok n => .ok { c with multiStatementMaxSize := n }
    | .error fault =>
      .error (.optionInvalid key value
        ("expected an integer byte count (" ++ fault.message ++ ")"))

/-- Apply an option. There is no configuration when the key is none of the
driver's options, which are left to whoever else reads them. -/
def applyOption? (c : Config) (key value : String) :
    Except InputError (Option Config) :=
  match Field.ofOption? key with
  | none => .ok none
  | some field => some <$> c.set key value field

def toJson (c : Config) : Json.Object :=
  [(Field.key .migrationsTable, .text c.migrationsTable),
    (Field.key .multiStatement, .boolean c.multiStatement),
    (Field.key .multiStatementMaxSize,
      .integer c.multiStatementMaxSize.toInt)]

end Config

end SchemaLedger
