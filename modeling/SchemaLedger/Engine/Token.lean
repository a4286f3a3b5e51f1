import SchemaLedger.Sql.Quote
/-!
# Tokens of SQL

Words and names, texts between single quotes, numbers and symbols. White space
and comments separate them. A name in double quotes is taken as it is, and
cannot be empty.
-/

namespace SchemaLedger.Engine

inductive Token where
  | word (s : String)
  | name (s : String)
  | text (s : String)
  | number (s : String)
  | symbol (s : String)
  deriving DecidableEq, Repr

namespace Token

def beginsWord (c : Char) : Bool :=
  c.isAlpha || c == '_' || 0x80 ≤ c.toNat

def continuesWord (c : Char) : Bool :=
  beginsWord c || c.isDigit || c == '$'

def isSpace (c : Char) : Bool :=
  c == ' ' || c == '\t' || c == '\n' || c == '\r' || c == '\x0b' || c == '\x0c'

/-- What follows a comment between marks, comments inside it being closed
first. -/
def skipComment : Nat → List Char → Option (List Char)
  | depth, '*' :: '/' :: rest =>
    match depth with
    | 0 => some rest
    | depth + 1 => skipComment depth rest
  | depth, '/' :: '*' :: rest => skipComment (depth + 1) rest
  | depth, _ :: rest => skipComment depth rest
  | _, [] => none

def spanDigits : List Char → List Char × List Char
  | '_' :: d :: rest =>
    if d.isDigit then
      let r := spanDigits rest
      (d :: r.1, r.2)
    else ([], '_' :: d :: rest)
  | c :: rest =>
    if c.isDigit then
      let r := spanDigits rest
      (c :: r.1, r.2)
    else ([], c :: rest)
  | [] => ([], [])

def frontDigits : List Char → List Char × List Char
  | c :: rest => if c.isDigit then spanDigits (c :: rest) else ([], c :: rest)
  | [] => ([], [])

def spanPower (s : List Char) : List Char × List Char :=
  match s with
  | e :: rest =>
    if e == 'e' || e == 'E' then
      let (sign, rest') :=
        match rest with
        | '-' :: rest => (['-'], rest)
        | '+' :: rest => (['+'], rest)
        | rest => ([], rest)
      let (digits, rest'') := frontDigits rest'
      if digits.isEmpty then ([], s) else ('e' :: sign ++ digits, rest'')
    else ([], s)
  | [] => ([], [])

/-- A number: digits, perhaps a point among or beside them, and perhaps a power
of ten. -/
def spanNumber (s : List Char) : List Char × List Char :=
  let (whole, rest) := frontDigits s
  let (fraction, rest) :=
    match rest with
    | '.' :: rest =>
      let (digits, rest) := frontDigits rest
      ('.' :: digits, rest)
    | rest => ([], rest)
  let (power, rest) := spanPower rest
  (whole ++ fraction ++ power, rest)

def longSymbols : List (Char × Char) :=
  [(':', ':'), ('<', '='), ('>', '='), ('<', '>'), ('!', '='), ('=', '='),
    ('|', '|'), ('/', '/'), ('-', '>'), ('=', '>'), (':', '=')]

def shortSymbols : List Char :=
  ['(', ')', '[', ']', '\x7b', '\x7d', ',', ';', '.', ':', '+', '-', '*', '/',
    '%', '<', '>', '=', '?', '$', '!', '&', '|', '^', '~', '#', '@']

/-- The token at the front, or none where white space or a comment stands, and
what follows it. -/
def next? (s : List Char) : Option (Option Token × List Char) :=
  match s with
  | [] => some (none, [])
  | '-' :: '-' :: rest =>
    some (none, rest.dropWhile fun c => c != '\n' && c != '\r')
  | '/' :: '*' :: rest => (skipComment 0 rest).map fun rest => (none, rest)
  | '\'' :: rest =>
    (Sql.readQuoted '\'' rest).map fun r =>
      (some (.text (String.ofList r.1)), r.2)
  | '"' :: rest => do
    let (chars, rest) ← Sql.readQuoted '"' rest
    if chars.isEmpty then none
    else some (some (.name (String.ofList chars)), rest)
  | c :: rest =>
    if isSpace c then some (none, rest)
    else if beginsWord c then
      let chars := s.takeWhile continuesWord
      some (some (.word (String.ofList chars)), s.drop chars.length)
    else if c.isDigit || (c == '.' && (rest.head?).any Char.isDigit) then
      let (chars, rest) := spanNumber s
      if (rest.head?).any beginsWord then none
      else some (some (.number (String.ofList chars)), rest)
    else
      match longSymbols.find? fun (a, b) => a == c && rest.head? == some b with
      | some (a, b) => some (some (.symbol (String.ofList [a, b])), rest.drop 1)
      | none =>
        if shortSymbols.contains c then
          some (some (.symbol (String.ofList [c])), rest)
        else none

def ofCharsWithin : Nat → List Char → Option (List Token)
  | _, [] => some []
  | 0, _ => none
  | steps + 1, s => do
    let (token, rest) ← next? s
    let tokens ← ofCharsWithin steps rest
    return token.toList ++ tokens

/-- The tokens of a text, unless something in it is no token. Every step takes
some characters, so there are no more steps than characters. -/
def ofChars? (s : List Char) : Option (List Token) :=
  ofCharsWithin s.length s

def ofText? (s : String) : Option (List Token) :=
  ofChars? s.toList

def isWord (t : Token) (word : String) : Bool :=
  match t with
  | .word s => s.toLower == word
  | _ => false

end Token

end SchemaLedger.Engine
