import SchemaLedger.Sql.Quote
/-!
# Qualified names

The name of a migrations table may say where the table lives: everything
before the last dot is the schema, and a dot inside that part separates a
catalog from it. `tableParts` are the identifiers a name stands for, and
`qualifiedTable` is how they are written.
-/

namespace SchemaLedger.Sql

def defaultSchema : String := "main"

def cut (separator : Char) : List Char → List (List Char)
  | [] => [[]]
  | c :: cs =>
    if c = separator then
      [] :: cut separator cs
    else
      match cut separator cs with
      | [] => [[c]]
      | part :: parts => (c :: part) :: parts

@[simp] theorem cut_nil (separator : Char) : cut separator [] = [[]] := rfl

theorem cut_ne_nil (separator : Char) (s : List Char) :
    cut separator s ≠ [] := by
  induction s with
  | nil => simp
  | cons c cs ih =>
    simp only [cut]
    split
    · simp
    · split <;> simp

def cutLast? (separator : Char) : List Char → Option (List Char × List Char)
  | [] => none
  | c :: cs =>
    match cutLast? separator cs with
    | some (before, after) => some (c :: before, after)
    | none => if c = separator then some ([], cs) else none

structure SchemaAndTable where
  schema : String
  table : String
  deriving DecidableEq, Repr

/-- Cut a name at its last dot. -/
def splitName (name : String) : SchemaAndTable :=
  match cutLast? '.' name.toList with
  | some (schema, table) => ⟨String.ofList schema, String.ofList table⟩
  | none => ⟨defaultSchema, name⟩

/-- The identifiers of a name, outermost first. -/
def tableParts (name : String) : List String :=
  let split := splitName name
  (cut '.' split.schema.toList).map String.ofList ++ [split.table]

/-- The quoted form of a name, always with its schema. A catalog in front of
the schema is quoted on its own, so it keeps its meaning. -/
def qualifiedTable (name : String) : String :=
  ".".intercalate ((tableParts name).map quoteIdentifier)

example : qualifiedTable "versions" = "\"main\".\"versions\"" := by decide
example : splitName "app.ops.versions" = ⟨"app.ops", "versions"⟩ := by decide

end SchemaLedger.Sql
