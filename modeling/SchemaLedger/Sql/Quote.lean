/-!
# Quoting

Names and values that end up in generated SQL. A quoted token ends at the
first quote that is not doubled, so doubling every quote inside keeps the
whole text in the token. `quoted mark s` is the token, and `readQuoted` reads
one back from the front of a text.
-/

namespace SchemaLedger.Sql

def double (mark : Char) (s : List Char) : List Char :=
  s.flatMap fun c => if c = mark then [mark, mark] else [c]

@[simp] theorem double_nil (mark : Char) : double mark [] = [] := rfl

theorem double_cons (mark c : Char) (s : List Char) :
    double mark (c :: s) =
      (if c = mark then [mark, mark] else [c]) ++ double mark s := rfl

@[simp] theorem double_append (mark : Char) (s t : List Char) :
    double mark (s ++ t) = double mark s ++ double mark t :=
  List.flatMap_append

/-- The token: the text between two marks, marks inside it doubled. -/
def quoted (mark : Char) (s : List Char) : List Char :=
  mark :: double mark s ++ [mark]

/-- Read the rest of a token whose opening mark has been taken. The token ends
at the first mark that is not doubled; there is none in an unfinished one. -/
def readQuoted (mark : Char) : List Char → Option (List Char × List Char)
  | [] => none
  | [c] => if c = mark then some ([], []) else none
  | c :: d :: rest =>
    if c = mark then
      if d = mark then
        (readQuoted mark rest).map fun r => (mark :: r.1, r.2)
      else
        some ([], d :: rest)
    else
      (readQuoted mark (d :: rest)).map fun r => (c :: r.1, r.2)

def quoteIdentifier (name : String) : String :=
  String.ofList (quoted '"' name.toList)

def escapeLiteral (value : String) : String :=
  String.ofList (double '\'' value.toList)

example : quoteIdentifier "odd\"name" = "\"odd\"\"name\"" := by decide
example : escapeLiteral "it's" = "it''s" := by decide

end SchemaLedger.Sql
