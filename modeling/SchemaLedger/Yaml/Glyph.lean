/-!
# Characters of a document and where they stand

Before a document is read its characters are given their places, and every
line break becomes one character: a carriage return, a line feed, both in a
row and the next-line control all become a line feed, and the two Unicode
separators stay what they are. A document with a control character is refused
as a whole.
-/

namespace SchemaLedger.Yaml

/-- A place in a document, counted in characters from zero. -/
structure Mark where
  index : Nat := 0
  line : Nat := 0
  column : Nat := 0
  deriving DecidableEq, Repr

def Mark.next (m : Mark) : Mark :=
  { m with index := m.index + 1, column := m.column + 1 }

def Mark.nextLine (m : Mark) (width : Nat) : Mark :=
  ⟨m.index + width, m.line + 1, 0⟩

/-- How a message gives a place. The very beginning is not given. -/
def Mark.suffix (m : Mark) : String :=
  if m.line = 0 ∧ m.column = 0 then ""
  else " at line " ++ toString (m.line + 1) ++ " column "
    ++ toString (m.column + 1)

structure Glyph where
  char : Char
  mark : Mark
  deriving DecidableEq, Repr

def isBreak (c : Char) : Bool :=
  c == '\n' || c == '\r' || c == '\u0085' || c == '\u2028' || c == '\u2029'

def normalBreak (c : Char) : Char :=
  if c == '\u2028' || c == '\u2029' then c else '\n'

def isBlank (c : Char) : Bool :=
  c == ' ' || c == '\t'

def isPermitted (c : Char) : Bool :=
  c == '\t' || c == '\n' || c == '\r' || (' ' ≤ c && c ≤ '~')
    || c == '\u0085'
    || ('\u00A0' ≤ c && c ≤ '\uFFFD' && c != '\uFEFF')
    || '\uFFFF' < c

def placed (m : Mark) : List Char → List Glyph × Mark
  | [] => ([], m)
  | '\r' :: '\n' :: rest =>
    let after := placed (m.nextLine 2) rest
    (⟨'\n', m⟩ :: after.1, after.2)
  | c :: rest =>
    if isBreak c then
      let after := placed (m.nextLine 1) rest
      (⟨normalBreak c, m⟩ :: after.1, after.2)
    else
      let after := placed m.next rest
      (⟨c, m⟩ :: after.1, after.2)

/-- The characters of a document. A byte order mark in front of it is not part
of it. -/
def glyphs? (document : List Char) : Option (List Glyph × Mark) :=
  let body :=
    match document with
    | '\uFEFF' :: rest => rest
    | _ => document
  if body.all isPermitted then some (placed {} body) else none

def front? (rest : List Glyph) : Option Char :=
  rest.head?.map Glyph.char

def startsWith (c : Char) (rest : List Glyph) : Bool :=
  front? rest == some c

/-- A word ends here: at a blank, a line break or the end. -/
def endsWord (rest : List Glyph) : Bool :=
  (front? rest).all fun c => isBlank c || isBreak c

def endsLine (rest : List Glyph) : Bool :=
  (front? rest).all isBreak

/-- The word `---` or `...` at the beginning of a line. -/
def isBoundary (c : Char) (rest : List Glyph) : Bool :=
  match rest with
  | x :: y :: z :: rest =>
    x.mark.column == 0 && [x, y, z].all (·.char == c) && endsWord rest
  | _ => false

def atBoundary (rest : List Glyph) : Bool :=
  isBoundary '-' rest || isBoundary '.' rest

def skipBlanks (rest : List Glyph) : List Glyph :=
  rest.dropWhile fun g => isBlank g.char

/-- What follows the rest of a line, its break included, provided that it
holds nothing but blanks and a comment. -/
def skipComment? (rest : List Glyph) : Option (List Glyph) :=
  let rest := skipBlanks rest
  let rest :=
    if startsWith '#' rest then rest.dropWhile fun g => !isBreak g.char
    else rest
  if endsLine rest then some (rest.drop 1) else none

end SchemaLedger.Yaml
