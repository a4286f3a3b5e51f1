import SchemaLedger.Engine.Token
/-!
# Texts of lists, structures and maps

Such a text has its items between brackets, with commas between them. An item
may be quoted, and may itself have brackets, in which commas do not count.
-/

namespace SchemaLedger.Engine.Nested

/-- An item of a text, and whether it stood between quotes. -/
structure Piece where
  text : String
  quoted : Bool
  deriving DecidableEq, Repr

def Piece.isNull (p : Piece) : Bool :=
  !p.quoted && p.text.toLower == "null"

def consFirst (c : Char) : List (List Char) → List (List Char)
  | [] => [[c]]
  | part :: parts => (c :: part) :: parts

/-- The parts of a text between separators, those in brackets and between
quotes not counting. -/
def split (separator : Char) :
    Nat → Option Char → List Char → List (List Char)
  | _, _, [] => [[]]
  | depth, some q, '\\' :: c :: rest =>
    consFirst '\\' (consFirst c (split separator depth (some q) rest))
  | depth, some q, c :: rest =>
    consFirst c (split separator depth (if c == q then none else some q) rest)
  | depth, none, c :: rest =>
    if c == '\'' || c == '"' then
      consFirst c (split separator depth (some c) rest)
    else if c == '[' || c == '\x7b' || c == '(' then
      consFirst c (split separator (depth + 1) none rest)
    else if c == ']' || c == '\x7d' || c == ')' then
      consFirst c (split separator (depth - 1) none rest)
    else if c == separator && depth == 0 then
      [] :: split separator depth none rest
    else consFirst c (split separator depth none rest)

def trim (s : List Char) : List Char :=
  ((s.dropWhile Token.isSpace).reverse.dropWhile Token.isSpace).reverse

/-- What stands between quotes, the backslashes in front of characters and one
of two quotes in a row being dropped. -/
def unquoted (q : Char) : List Char → List Char
  | '\\' :: c :: rest => c :: unquoted q rest
  | c :: d :: rest =>
    if c == q && d == q then c :: unquoted q rest
    else c :: unquoted q (d :: rest)
  | rest => rest

def Piece.ofPart (part : List Char) : Piece :=
  match trim part with
  | q :: rest =>
    if (q == '\'' || q == '"') && !rest.isEmpty && rest.getLast? == some q then
      ⟨String.ofList (unquoted q rest.dropLast), true⟩
    else ⟨String.ofList (q :: rest), false⟩
  | [] => ⟨"", false⟩

def inside? (opening closing : Char) (s : String) : Option (List Char) :=
  match trim s.toList with
  | c :: rest =>
    if c == opening && rest.getLast? == some closing then some rest.dropLast
    else none
  | [] => none

/-- The parts between commas, of which there are none in a blank text. -/
def parts (body : List Char) : List (List Char) :=
  if (trim body).isEmpty then [] else split ',' 0 none body

def items? (s : String) : Option (List Piece) :=
  (inside? '[' ']' s).map fun body => (parts body).map Piece.ofPart

def fields? (separator : Char) (s : String) : Option (List (Piece × Piece)) := do
  let body ← inside? '\x7b' '\x7d' s
  (parts body).mapM fun part =>
    match split separator 0 none part with
    | key :: value :: more =>
      some (Piece.ofPart key,
        Piece.ofPart ([separator].intercalate (value :: more)))
    | _ => none

end SchemaLedger.Engine.Nested
