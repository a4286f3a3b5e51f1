import SchemaLedger.Config.Basic
import SchemaLedger.Text.Utf8
import SchemaLedger.Yaml.Meaning
/-!
# Configuration files

A configuration file is a mapping from the names of the fields to their values.
Every field may be left out, none may occur twice, and there are no others. A
file without any content gives the default configuration.
-/

namespace SchemaLedger.Config

open Yaml (Document Mark Node Placed Scalar)

inductive Refusal where
  | malformed
  /-- It can, but something in it is not what it should be. The value in
  question, if it is one, is given by the text of its key. -/
  | wrong (reason : String) (value : Option String) (mark : Mark)
  deriving DecidableEq, Repr

def Refusal.message : Refusal → String
  | malformed => "malformed YAML document"
  | wrong reason none mark => reason ++ mark.suffix
  | wrong reason (some key) mark => key ++ ": " ++ reason ++ mark.suffix

/-- The nodes that aliases can repeat, the last one of a name first. -/
abbrev Anchors := List (String × Placed)

def Anchors.note (anchors : Anchors) (p : Placed) : Anchors :=
  match p.anchor with
  | none => anchors
  | some name => (name, p) :: anchors

/-- The node an alias repeats. All other nodes stand for themselves. -/
def Anchors.resolve (anchors : Anchors) (p : Placed) :
    Except Refusal Placed :=
  match p.node with
  | .aliasOf name =>
    match anchors.lookup name with
    | some p => .ok p
    | none => .error .malformed
  | _ => .ok p

structure Partial where
  migrationsTable : Option String := none
  multiStatement : Option Bool := none
  multiStatementMaxSize : Option Int64 := none

def Partial.has (p : Partial) : Field → Bool
  | .migrationsTable => p.migrationsTable.isSome
  | .multiStatement => p.multiStatement.isSome
  | .multiStatementMaxSize => p.multiStatementMaxSize.isSome

def Partial.complete (p : Partial) : Config :=
  { migrationsTable := p.migrationsTable.getD defaultTable
    multiStatement := p.multiStatement.getD false
    multiStatementMaxSize := p.multiStatementMaxSize.getD defaultMaxSize }

def Field.expectation : Field → String
  | migrationsTable => "a string"
  | multiStatement => "a boolean"
  | multiStatementMaxSize => "i64"

def truthOf? (s : Scalar) (tag : Option String) : Option Bool :=
  if s.mayBe tag "bool" then Yaml.readTruth? s.text else none

def integerOf? (s : Scalar) (tag : Option String) : Option Int64 :=
  if s.mayBe tag "int" then
    ((Yaml.readInteger? s.text).filter fun n =>
      decide (-Int.pow 2 63 ≤ n) && decide (n < Int.pow 2 63)).map Int64.ofInt
  else
    none

/-- Give a field the value that a node stands for. Every scalar is a table
name. -/
def Partial.give? (p : Partial) (field : Field) (node : Node) :
    Option Partial :=
  match node, field with
  | .scalar s _, .migrationsTable =>
    some { p with migrationsTable := some s.text }
  | .scalar s tag, .multiStatement =>
    (truthOf? s tag).map fun b => { p with multiStatement := some b }
  | .scalar s tag, .multiStatementMaxSize =>
    (integerOf? s tag).map fun n => { p with multiStatementMaxSize := some n }
  | _, _ => none

def fieldNames : String :=
  ", ".intercalate
    ([Field.migrationsTable, .multiStatement, .multiStatementMaxSize].map
      fun f => "`" ++ f.key ++ "`")

def fieldOf (key : Placed) : Except Refusal Field :=
  match key.node with
  | .scalar s _ =>
    match Field.ofKey? s.text with
    | some field => .ok field
    | none =>
      .error (.wrong
        ("unknown field `" ++ s.text ++ "`, expected one of " ++ fieldNames)
        none key.mark)
  | node => .error (.wrong (node.mismatch "field identifier") none key.mark)

def keyLabel (key : Placed) : String :=
  match key.node with
  | .scalar s _ => s.text
  | _ => "?"

/-- Read keys and values in turn; `root` is the place of the mapping. -/
def ofEntries (root : Mark) :
    Anchors → Partial → List Placed → Except Refusal Partial
  | _, p, [] => .ok p
  | anchors, p, key :: rest => do
    let anchors := anchors.note key
    let field ← fieldOf (← anchors.resolve key)
    if p.has field then
      .error (.wrong ("duplicate field `" ++ field.key ++ "`") none root)
    else
      match rest with
      | [] => .error .malformed
      | value :: rest =>
        let anchors := anchors.note value
        let value ← anchors.resolve value
        match p.give? field value.node with
        | some p => ofEntries root anchors p rest
        | none =>
          .error (.wrong (value.node.mismatch field.expectation)
            (some (keyLabel key)) value.mark)

def ofDocument (d : Document) : Except Refusal Config := do
  let p ←
    match d.root with
    | none => .ok {}
    | some root =>
      match root.node with
      | .mapping => ofEntries root.mark (Anchors.note [] root) {} d.entries
      | .aliasOf _ => .error .malformed
      | .scalar ⟨"", .plain⟩ _ => .ok {}
      | node =>
        .error (.wrong (node.mismatch "struct DriverConfig") none root.mark)
  if d.ending = .complete then .ok p.complete else .error .malformed

def ofYaml (text : String) : Except InputError Config :=
  (ofDocument (Document.read text)).mapError fun r =>
    .configMalformed r.message

inductive FileContent where
  | missing
  /-- Something is there that cannot be read, for this reason. -/
  | unreadable (reason : String)
  | bytes (content : List UInt8)

def ofFile (path : String) : FileContent → Except InputError Config
  | .missing => .error (.configNotFound path)
  | .unreadable reason => .error (.configUnreadable path reason)
  | .bytes content =>
    match Utf8.decode? content with
    | none =>
      .error (.configUnreadable path "stream did not contain valid UTF-8")
    | some text => ofYaml text

end SchemaLedger.Config
