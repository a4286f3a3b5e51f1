import SchemaLedger.Yaml.Tag
/-!
# Tokens

A document is read as a row of tokens. The structure of block collections is
in the indentation: a collection opens where a line is indented more than the
one around it and closes where a line is indented less. A key need not be
marked: what stands in front of a colon in one line turns out to be a key when
the colon is met, and its marker is put in front of it then. Until then the
tokens from there on are held back.
-/

namespace SchemaLedger.Yaml

inductive TokenKind where
  | directive (d : Directive)
  | documentStart
  | documentEnd
  | streamEnd
  | blockSequenceStart
  | blockMappingStart
  | blockEnd
  | flowSequenceStart
  | flowSequenceEnd
  | flowMappingStart
  | flowMappingEnd
  | blockEntry
  | flowEntry
  | key
  | value
  | aliasOf (name : String)
  | anchor (name : String)
  | tag (t : Tag)
  | scalar (s : Scalar)
  deriving DecidableEq, Repr

structure Token where
  kind : TokenKind
  start : Mark
  stop : Mark
  deriving DecidableEq, Repr

/-- A place in the row of tokens where a key may turn out to begin. It must
turn out so when the place is where the entries of a block mapping begin. -/
structure KeyCandidate where
  position : Nat
  mark : Mark
  required : Bool

/-- A key ends in the line where it begins, and is at most this long. -/
def KeyCandidate.maxLength : Nat := 1024

def KeyCandidate.isStale (k : KeyCandidate) (here : Mark) : Bool :=
  k.mark.line < here.line || k.mark.index + maxLength < here.index

/-- The state between two tokens: the tokens so far, the columns of the open
block collections, the innermost first, the key candidate outside and those
inside of the open flow collections, the innermost first, and whether a key
may begin here. -/
structure Lexer where
  tokens : List Token := []
  indents : List Nat := []
  outer : Option KeyCandidate := none
  inner : List (Option KeyCandidate) := []
  keyAllowed : Bool := true

namespace Lexer

def inFlow (l : Lexer) : Bool :=
  !l.inner.isEmpty

def indent? (l : Lexer) : Option Nat :=
  l.indents.head?

def candidate? (l : Lexer) : Option KeyCandidate :=
  match l.inner with
  | [] => l.outer
  | k :: _ => k

def withCandidate (l : Lexer) (k : Option KeyCandidate) : Lexer :=
  match l.inner with
  | [] => { l with outer := k }
  | _ :: inner => { l with inner := k :: inner }

def candidates (l : Lexer) : List KeyCandidate :=
  (l.outer :: l.inner).filterMap id

def push (l : Lexer) (kind : TokenKind) (start stop : Mark) : Lexer :=
  { l with tokens := l.tokens ++ [⟨kind, start, stop⟩] }

def dropCandidate? (l : Lexer) : Option Lexer :=
  if l.candidate?.any (·.required) then none else some (l.withCandidate none)

def dropStale? (l : Lexer) (here : Mark) : Option Lexer :=
  let stale (k : KeyCandidate) : Bool := k.isStale here
  let keep (k : Option KeyCandidate) : Option KeyCandidate :=
    k.filter fun k => !stale k
  if l.candidates.any fun k => stale k && k.required then none
  else some { l with outer := keep l.outer, inner := l.inner.map keep }

def saveCandidate? (l : Lexer) (here : Mark) : Option Lexer :=
  if l.keyAllowed then do
    let l ← l.dropCandidate?
    let required := !l.inFlow && l.indent? == some here.column
    some (l.withCandidate (some ⟨l.tokens.length, here, required⟩))
  else
    some l

def closeBlocks (l : Lexer) (inside : Nat → Bool) (here : Mark) : Lexer :=
  if l.inFlow then l
  else
    let closed := l.indents.takeWhile fun c => !inside c
    { l with
      tokens := l.tokens ++ closed.map fun _ => ⟨.blockEnd, here, here⟩
      indents := l.indents.drop closed.length }

/-- Open a block collection at a column, unless one is open there. Its token
goes to the given position. -/
def openBlock (l : Lexer) (kind : TokenKind) (mark : Mark) (position : Nat) :
    Lexer :=
  if l.inFlow || l.indent?.any (mark.column ≤ ·) then l
  else
    { l with
      tokens := l.tokens.insertIdx position ⟨kind, mark, mark⟩
      indents := mark.column :: l.indents }

def closeAll? (l : Lexer) (here : Mark) : Option Lexer := do
  let l ← (l.closeBlocks (fun _ => false) here).dropCandidate?
  some { l with keyAllowed := false }

/-- The mark of a block collection's entry: an entry, or a key that is marked
as one. -/
def fetchEntry? (l : Lexer) (opening kind : TokenKind) (keyNext : Bool)
    (here : Mark) : Option Lexer :=
  if !l.inFlow && !l.keyAllowed then none
  else do
    let l ← (l.openBlock opening here l.tokens.length).dropCandidate?
    some ({ l with keyAllowed := keyNext }.push kind here here.next)

/-- A colon: the key candidate turns out to be a key. Without one, the colon
marks the value of a key that was marked, or of a key that is empty. -/
def fetchValue? (l : Lexer) (here : Mark) : Option Lexer :=
  match l.candidate? with
  | some k =>
    let l := { l with
      tokens := l.tokens.insertIdx k.position ⟨.key, k.mark, k.mark⟩ }
    let l := (l.openBlock .blockMappingStart k.mark k.position).withCandidate
      none
    some ({ l with keyAllowed := false }.push .value here here.next)
  | none =>
    if !l.inFlow && !l.keyAllowed then none
    else
      let l := l.openBlock .blockMappingStart here l.tokens.length
      some ({ l with keyAllowed := !l.inFlow }.push .value here here.next)

def placeOf (stop : Mark) (rest : List Glyph) : Mark :=
  (rest.head?.map Glyph.mark).getD stop

/-- A token that may be, or begin, a key: an alias, an anchor, a tag or a
scalar in one line. -/
def fetchKeyable? (l : Lexer) (stop here : Mark)
    (read : Option (TokenKind × List Glyph)) :
    Option (Lexer × List Glyph) := do
  let l ← l.saveCandidate? here
  let (kind, rest) ← read
  some ({ l with keyAllowed := false }.push kind here (placeOf stop rest), rest)

def scalarOf (style : Style) (text : List Char) : TokenKind :=
  .scalar ⟨String.ofList text, style⟩

/-- A plain scalar. Behind a line break a key may begin again. -/
def fetchPlain? (l : Lexer) (stop here : Mark) (rest : List Glyph) :
    Option (Lexer × List Glyph) := do
  let l ← l.saveCandidate? here
  let indent := l.indent?.elim 0 (· + 1)
  let (text, broken, rest) ← readPlain l.inFlow indent {} [] rest
  some
    ({ l with keyAllowed := broken }.push (scalarOf .plain text) here
      (placeOf stop rest), rest)

def fetchBlockScalar? (l : Lexer) (style : Style) (stop here : Mark)
    (rest : List Glyph) : Option (Lexer × List Glyph) := do
  let l ← l.dropCandidate?
  let (text, rest) ← readBlockScalar (style == .folded) l.indent? rest
  some
    ({ l with keyAllowed := true }.push (scalarOf style text) here
      (placeOf stop rest), rest)

def fetchFlowStart? (l : Lexer) (kind : TokenKind) (here : Mark) :
    Option Lexer := do
  let l ← l.saveCandidate? here
  some ({ l with inner := none :: l.inner, keyAllowed := true }.push kind here
    here.next)

def fetchFlowEnd? (l : Lexer) (kind : TokenKind) (here : Mark) :
    Option Lexer := do
  let l ← l.dropCandidate?
  some ({ l with inner := l.inner.drop 1, keyAllowed := false }.push kind here
    here.next)

def fetchFlowEntry? (l : Lexer) (here : Mark) : Option Lexer := do
  let l ← l.dropCandidate?
  some ({ l with keyAllowed := true }.push .flowEntry here here.next)

/-- The white space, comments and line breaks in front of a token. Tabs do not
count where a key may begin in a block collection; a line break lets a key
begin. -/
def skipSpace (l : Lexer) : Bool → List Glyph → Lexer × List Glyph
  | _, [] => (l, [])
  | inComment, g :: rest =>
    if isBreak g.char then
      skipSpace { l with keyAllowed := l.keyAllowed || !l.inFlow } false rest
    else if inComment then skipSpace l true rest
    else if g.char == ' ' then skipSpace l false rest
    else if g.char == '\t' && (l.inFlow || !l.keyAllowed) then
      skipSpace l false rest
    else if g.char == '#' then skipSpace l true rest
    else (l, g :: rest)

def isIndicator (c : Char) : Bool :=
  isFlowIndicator c
    || ['-', '?', ':', '#', '&', '*', '!', '|', '>', '\'', '"', '%', '@',
        '`'].contains c

def beginsPlain (inFlow : Bool) (c : Char) (rest : List Glyph) : Bool :=
  !(isBlank c || isIndicator c)
    || (c == '-' && !(front? rest).any isBlank)
    || (!inFlow && (c == '?' || c == ':') && !endsWord rest)

def fetchAt? (l : Lexer) (stop : Mark) (g : Glyph) (rest : List Glyph) :
    Option (Lexer × List Glyph) :=
  let here := g.mark
  let all := g :: rest
  let onward (l : Option Lexer) : Option (Lexer × List Glyph) :=
    l.map fun l => (l, rest)
  let marker := endsWord rest || l.inFlow
  if here.column = 0 && g.char == '%' then do
    let l ← l.closeAll? here
    let (directive, rest) ← readDirective rest
    some (l.push (.directive directive) here (placeOf stop rest), rest)
  else if atBoundary all then do
    let l ← l.closeAll? here
    let kind := if g.char == '-' then TokenKind.documentStart else .documentEnd
    let rest := rest.drop 2
    some (l.push kind here (placeOf stop rest), rest)
  else
    match g.char with
    | '[' => onward (l.fetchFlowStart? .flowSequenceStart here)
    | '{' => onward (l.fetchFlowStart? .flowMappingStart here)
    | ']' => onward (l.fetchFlowEnd? .flowSequenceEnd here)
    | '}' => onward (l.fetchFlowEnd? .flowMappingEnd here)
    | ',' => onward (l.fetchFlowEntry? here)
    | '*' =>
      l.fetchKeyable? stop here
        ((readName rest).map fun r => (.aliasOf r.1, r.2))
    | '&' =>
      l.fetchKeyable? stop here
        ((readName rest).map fun r => (.anchor r.1, r.2))
    | '!' =>
      l.fetchKeyable? stop here
        ((readTag l.inFlow all).map fun r => (.tag r.1, r.2))
    | '\'' =>
      l.fetchKeyable? stop here
        ((readSingleQuoted {} [] rest).map fun r =>
          (scalarOf .singleQuoted r.1, r.2))
    | '"' =>
      l.fetchKeyable? stop here
        ((readDoubleQuoted 0 {} [] rest).map fun r =>
          (scalarOf .doubleQuoted r.1, r.2))
    | c =>
      if c == '-' && endsWord rest then
        onward (l.fetchEntry? .blockSequenceStart .blockEntry true here)
      else if c == '?' && marker then
        onward (l.fetchEntry? .blockMappingStart .key (!l.inFlow) here)
      else if c == ':' && marker then onward (l.fetchValue? here)
      else if c == '|' && !l.inFlow then
        l.fetchBlockScalar? .literal stop here rest
      else if c == '>' && !l.inFlow then
        l.fetchBlockScalar? .folded stop here rest
      else if beginsPlain l.inFlow c rest then l.fetchPlain? stop here all
      else none

def fetch? (l : Lexer) (stop : Mark) (rest : List Glyph) :
    Option (Lexer × Option (List Glyph)) := do
  let (l, rest) := l.skipSpace false rest
  let here := placeOf stop rest
  let l ← l.dropStale? here
  match rest with
  | [] =>
    let l ← l.closeAll? here
    some (l.push .streamEnd here here, none)
  | g :: rest =>
    let l := l.closeBlocks (fun c => c ≤ here.column) here
    (l.fetchAt? stop g rest).map fun r => (r.1, some r.2)

/-- The tokens that are not held back by a key candidate in front of them. -/
def released (l : Lexer) (here : Mark) : List Token :=
  let holding := l.candidates.filter fun k => k.required || !k.isStale here
  l.tokens.take ((holding.map KeyCandidate.position).foldl min l.tokens.length)

end Lexer

/-- The tokens up to the end or up to a fault, and whether there is none. A
step that is not the last one takes some characters. -/
def lexFrom (stop : Mark) (l : Lexer) (rest : List Glyph) :
    List Token × Bool :=
  match l.fetch? stop rest with
  | none => (l.released (Lexer.placeOf stop rest), false)
  | some (l, none) => (l.tokens, true)
  | some (l, some rest') =>
    if rest'.length < rest.length then lexFrom stop l rest'
    else (l.tokens, false)
termination_by rest.length

def tokens (document : List Char) : List Token × Bool :=
  match glyphs? document with
  | none => ([], false)
  | some (glyphs, stop) => lexFrom stop {} glyphs

end SchemaLedger.Yaml
