import SchemaLedger.Text.Ascii
import SchemaLedger.Text.Utf8
/-!
# Kinds of statement

A statement changes the catalog or works with data. The kind is read off the
first letters alone: the rule is no parser, so a leading comment hides a
catalog change, and any text that merely begins with one of the words counts
as one.
-/

namespace SchemaLedger

inductive StatementKind where
  | schema
  | data
  deriving DecidableEq, Repr

namespace StatementKind

def schemaWords : List (List UInt8) :=
  ["CREATE", "ALTER", "DROP"].map Utf8.encode

/-- The kind of a statement, ASCII blanks around it and the case of its
letters aside. -/
def classify (statement : List UInt8) : StatementKind :=
  let trimmed := Ascii.trim statement
  if schemaWords.any fun word => Ascii.startsWithWord word trimmed then schema
  else data

def label : StatementKind → String
  | schema => "schema"
  | data => "data"

end StatementKind

end SchemaLedger
