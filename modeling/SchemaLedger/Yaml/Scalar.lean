import SchemaLedger.Text.Integer
import SchemaLedger.Yaml.Glyph
/-!
# Scalars

A scalar is a text written in one of five styles. Plain and quoted scalars may
run over several lines: the white space around a line break counts for one
space, and each further line break for a line break. Block scalars keep the
lines of an indented block, or fold them.
-/

namespace SchemaLedger.Yaml

inductive Style where
  | plain
  | singleQuoted
  | doubleQuoted
  | literal
  | folded
  deriving DecidableEq, Repr

structure Scalar where
  text : String
  style : Style := .plain
  deriving DecidableEq, Repr

/-- White space between two characters of a scalar: the blanks in a line or,
once there is a line break, the first break and the further ones. -/
structure Gap where
  blanks : List Char := []
  broken : Bool := false
  first : Option Char := none
  further : List Char := []

namespace Gap

def blank (gap : Gap) (c : Char) : Gap :=
  if gap.broken then gap else { gap with blanks := gap.blanks ++ [c] }

def lineBreak (gap : Gap) (c : Char) : Gap :=
  if gap.broken then { gap with further := gap.further ++ [c] }
  else { broken := true, first := some c }

def silentBreak : Gap := { broken := true }

def isEmpty (gap : Gap) : Bool :=
  !gap.broken && gap.blanks.isEmpty

def text (gap : Gap) : List Char :=
  if gap.broken then
    match gap.first with
    | some '\n' => if gap.further.isEmpty then [' '] else gap.further
    | some c => c :: gap.further
    | none => gap.further
  else
    gap.blanks

end Gap

def isFlowIndicator (c : Char) : Bool :=
  c == ',' || c == '[' || c == ']' || c == '{' || c == '}'

inductive PlainStep where
  | stop
  | refuse
  | take

/-- A plain scalar ends in front of a colon that ends a word, in a flow
collection also in front of its indicators, and behind white space in front of
a comment, of a document boundary and of a line that is indented too little.
A colon directly in front of a flow indicator is refused in a flow
collection. -/
def PlainStep.at (inFlow : Bool) (indent : Nat) (gap : Gap) (g : Glyph)
    (rest : List Glyph) : PlainStep :=
  let afterGap := !gap.isEmpty
  if afterGap && !inFlow && g.mark.column < indent then .stop
  else if afterGap && (g.char == '#' || atBoundary (g :: rest)) then .stop
  else if inFlow && g.char == ':'
      && (front? rest).any fun c => c == '?' || isFlowIndicator c then .refuse
  else if g.char == ':' && endsWord rest then .stop
  else if inFlow && isFlowIndicator g.char then .stop
  else .take

/-- Read a plain scalar, `taken` being what there is of it, backwards. The
outcome is the text, whether a line break follows it, and the rest. -/
def readPlain (inFlow : Bool) (indent : Nat) :
    Gap → List Char → List Glyph → Option (List Char × Bool × List Glyph)
  | gap, taken, [] => some (taken.reverse, gap.broken, [])
  | gap, taken, g :: rest =>
    if isBlank g.char then
      if gap.broken && g.char == '\t' && g.mark.column < indent then none
      else readPlain inFlow indent (gap.blank g.char) taken rest
    else if isBreak g.char then
      readPlain inFlow indent (gap.lineBreak g.char) taken rest
    else
      match PlainStep.at inFlow indent gap g rest with
      | .stop => some (taken.reverse, gap.broken, g :: rest)
      | .refuse => none
      | .take =>
        readPlain inFlow indent {} (g.char :: (gap.text.reverse ++ taken)) rest

/-- Read a scalar in single quotes, the opening one being taken. Two quotes in
a row stand for one. -/
def readSingleQuoted :
    Gap → List Char → List Glyph → Option (List Char × List Glyph)
  | _, _, [] => none
  | gap, taken, g :: rest =>
    if isBlank g.char then readSingleQuoted (gap.blank g.char) taken rest
    else if isBreak g.char then
      readSingleQuoted (gap.lineBreak g.char) taken rest
    else if atBoundary (g :: rest) then none
    else
      let taken := gap.text.reverse ++ taken
      if g.char == '\'' then
        match rest with
        | q :: rest' =>
          if q.char == '\'' then readSingleQuoted {} ('\'' :: taken) rest'
          else some (taken.reverse, rest)
        | [] => some (taken.reverse, [])
      else readSingleQuoted {} (g.char :: taken) rest

inductive Escape where
  | char (c : Char)
  /-- A code point in this number of hexadecimal digits. -/
  | code (digits : Nat)

def Escape.ofChar? : Char → Option Escape
  | '0' => some (.char '\x00')
  | 'a' => some (.char '\x07')
  | 'b' => some (.char '\x08')
  | 't' => some (.char '\t')
  | '\t' => some (.char '\t')
  | 'n' => some (.char '\n')
  | 'v' => some (.char '\x0B')
  | 'f' => some (.char '\x0C')
  | 'r' => some (.char '\r')
  | 'e' => some (.char '\x1B')
  | ' ' => some (.char ' ')
  | '"' => some (.char '"')
  | '/' => some (.char '/')
  | '\\' => some (.char '\\')
  | 'N' => some (.char '\u0085')
  | '_' => some (.char '\u00A0')
  | 'L' => some (.char '\u2028')
  | 'P' => some (.char '\u2029')
  | 'x' => some (.code 2)
  | 'u' => some (.code 4)
  | 'U' => some (.code 8)
  | _ => none

def hexValue? (c : Char) : Option Nat :=
  if c.isDigit then some (c.toNat - '0'.toNat)
  else if 'a' ≤ c && c ≤ 'f' then some (c.toNat - 'a'.toNat + 10)
  else if 'A' ≤ c && c ≤ 'F' then some (c.toNat - 'A'.toNat + 10)
  else none

def ofHex? (digits : List Char) : Option Char := do
  let values ← digits.mapM hexValue?
  let code := values.foldl (fun n d => n * 16 + d) 0
  if code.isValidChar then some (Char.ofNat code) else none

/-- Read a scalar in double quotes, the opening one being taken. `pending`
characters more belong to an escape that has been read already. -/
def readDoubleQuoted :
    Nat → Gap → List Char → List Glyph → Option (List Char × List Glyph)
  | _, _, _, [] => none
  | n + 1, gap, taken, _ :: rest => readDoubleQuoted n gap taken rest
  | 0, gap, taken, g :: rest =>
    if isBlank g.char then readDoubleQuoted 0 (gap.blank g.char) taken rest
    else if isBreak g.char then
      readDoubleQuoted 0 (gap.lineBreak g.char) taken rest
    else if atBoundary (g :: rest) then none
    else
      let taken := gap.text.reverse ++ taken
      if g.char == '"' then some (taken.reverse, rest)
      else if g.char == '\\' then
        match front? rest with
        | none => none
        | some c =>
          if isBreak c then readDoubleQuoted 1 Gap.silentBreak taken rest
          else
            match Escape.ofChar? c with
            | none => none
            | some (.char d) => readDoubleQuoted 1 {} (d :: taken) rest
            | some (.code digits) =>
              let written := ((rest.drop 1).take digits).map Glyph.char
              if written.length < digits then none
              else
                match ofHex? written with
                | none => none
                | some d =>
                  readDoubleQuoted (digits + 1) {} (d :: taken) rest
      else readDoubleQuoted 0 {} (g.char :: taken) rest

inductive Chomping where
  | strip
  | clip
  | keep
  deriving DecidableEq, Repr

def readChomping (rest : List Glyph) : Chomping × List Glyph :=
  if startsWith '+' rest then (.keep, rest.drop 1)
  else if startsWith '-' rest then (.strip, rest.drop 1)
  else (.clip, rest)

def readIncrement (rest : List Glyph) : Option (Option Nat × List Glyph) :=
  match (front? rest).bind Integer.digit? with
  | none => some (none, rest)
  | some 0 => none
  | some n => some (some n, rest.drop 1)

def readBlockHeader (rest : List Glyph) :
    Option (Chomping × Option Nat × List Glyph) := do
  match readChomping rest with
  | (.clip, _) =>
    let (increment, rest) ← readIncrement rest
    if increment.isSome then
      let (chomping, rest) := readChomping rest
      some (chomping, increment, rest)
    else
      some (.clip, increment, rest)
  | (chomping, rest) =>
    let (increment, rest) ← readIncrement rest
    some (chomping, increment, rest)

/-- The blank lines in front of a block whose indentation is not known yet:
their breaks, the widest indentation met, and the first line with something
in it. -/
def leadingBreaks :
    Nat → List Char → List Glyph → Option (Nat × List Char × List Glyph)
  | widest, breaks, [] => some (widest, breaks, [])
  | widest, breaks, g :: rest =>
    if g.char == ' ' then
      leadingBreaks (max widest (g.mark.column + 1)) breaks rest
    else if g.char == '\t' then none
    else if isBreak g.char then
      leadingBreaks widest (breaks ++ [g.char]) rest
    else some (widest, breaks, g :: rest)

/-- What has been read of a block scalar: its text, backwards, the break at
the end of its last line, the breaks of the blank lines behind that, and
whether the last line began with a blank. -/
structure Block where
  taken : List Char := []
  last : List Char := []
  breaks : List Char := []
  indented : Bool := false

/-- The block in front of a line that begins with `c`. In a folded block a
single break between two lines that do not begin with a blank becomes a
space. -/
def Block.newLine (b : Block) (folded : Bool) (c : Char) : Block :=
  let joint :=
    if folded && b.last == ['\n'] && !b.indented && !isBlank c then
      if b.breaks.isEmpty then [' '] else []
    else
      b.last
  { taken := b.breaks.reverse ++ (joint.reverse ++ b.taken)
    last := []
    breaks := []
    indented := isBlank c }

def readBlock (folded : Bool) (indent : Nat) :
    Bool → Block → List Glyph → Option (Block × List Glyph)
  | _, b, [] => some (b, [])
  | true, b, g :: rest =>
    if isBreak g.char then
      readBlock folded indent false { b with last := [g.char] } rest
    else
      readBlock folded indent true { b with taken := g.char :: b.taken } rest
  | false, b, g :: rest =>
    if g.char == ' ' && g.mark.column < indent then
      readBlock folded indent false b rest
    else if g.char == '\t' && g.mark.column < indent then none
    else if isBreak g.char then
      readBlock folded indent false { b with breaks := b.breaks ++ [g.char] }
        rest
    else if g.mark.column = indent then
      let b := b.newLine folded g.char
      readBlock folded indent true { b with taken := g.char :: b.taken } rest
    else some (b, g :: rest)

def Block.text (b : Block) (chomping : Chomping) : List Char :=
  b.taken.reverse ++
    match chomping with
    | .strip => []
    | .clip => b.last
    | .keep => b.last ++ b.breaks

/-- Read a block scalar whose indicator has been taken. `indent?` is the
indentation of the collection around it. -/
def readBlockScalar (folded : Bool) (indent? : Option Nat)
    (rest : List Glyph) : Option (List Char × List Glyph) := do
  let (chomping, increment, rest) ← readBlockHeader rest
  let rest ← skipComment? rest
  let (indent, breaks, rest) ←
    match increment with
    | some n => some (indent?.getD 0 + n, [], rest)
    | none => do
      let (widest, breaks, rest) ← leadingBreaks 0 [] rest
      some (max widest (indent?.elim 1 (· + 1)), breaks, rest)
  let (block, rest) ← readBlock folded indent false { breaks } rest
  some (block.text chomping, rest)

end SchemaLedger.Yaml
