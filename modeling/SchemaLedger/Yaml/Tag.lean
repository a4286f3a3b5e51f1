import SchemaLedger.Text.Utf8
import SchemaLedger.Yaml.Scalar
/-!
# Anchors, tags and directives

An anchor names a node so that an alias can repeat it. A tag says what a
scalar is; it is written with a handle that stands for the beginning of the
tag, or in full between angle brackets. Directives in front of a document give
its version and further handles.
-/

namespace SchemaLedger.Yaml

def isWordChar (c : Char) : Bool :=
  c.isAlphanum || c == '_' || c == '-'

def textOf (glyphs : List Glyph) : String :=
  String.ofList (glyphs.map Glyph.char)

def spanWord (rest : List Glyph) : List Glyph × List Glyph :=
  rest.span fun g => isWordChar g.char

def endsName (rest : List Glyph) : Bool :=
  endsWord rest ||
    (front? rest).any fun c =>
      ['?', ':', ',', ']', '}', '%', '@', '`'].contains c

def readName (rest : List Glyph) : Option (String × List Glyph) :=
  let (name, rest) := spanWord rest
  if !name.isEmpty && endsName rest then some (textOf name, rest) else none

/-- A tag as it is written: a handle and what follows it. A tag written in
full has no handle. -/
structure Tag where
  handle : String
  suffix : String
  deriving DecidableEq, Repr

def isTagChar (verbatim : Bool) (c : Char) : Bool :=
  isWordChar c
    || [';', '/', '?', ':', '@', '&', '=', '+', '$', '.', '%', '!', '~', '*',
        '\'', '(', ')'].contains c
    || (verbatim && [',', '[', ']'].contains c)

def sequenceWidth? (lead : Nat) : Option Nat :=
  if lead < 0x80 then some 1
  else if lead / 0x20 == 6 then some 2
  else if lead / 0x10 == 14 then some 3
  else if lead / 0x08 == 30 then some 4
  else none

/-- Read the characters of a tag. An octet may be escaped by a percent sign
and two hexadecimal digits; `missing` octets of a character begun by such an
escape must still follow in the same way. -/
def readTagChars (verbatim : Bool) :
    Nat → Nat → List UInt8 → List Glyph → Option (List UInt8 × List Glyph)
  | skip + 1, missing, taken, _ :: rest =>
    readTagChars verbatim skip missing taken rest
  | 0, missing, taken, g :: rest =>
    if g.char == '%' then do
      let [high, low] := (rest.take 2).map Glyph.char | none
      let octet := (← hexValue? high) * 16 + (← hexValue? low)
      let missing ←
        if missing = 0 then (sequenceWidth? octet).map (· - 1)
        else if octet / 0x40 == 2 then some (missing - 1)
        else none
      readTagChars verbatim 2 missing (octet.toUInt8 :: taken) rest
    else if missing != 0 then none
    else if isTagChar verbatim g.char then
      readTagChars verbatim 0 0 (g.char.toNat.toUInt8 :: taken) rest
    else some (taken.reverse, g :: rest)
  | _, missing, taken, [] =>
    if missing = 0 then some (taken.reverse, []) else none

def readSuffix (verbatim : Bool) (rest : List Glyph) :
    Option (String × List Glyph) := do
  let (octets, rest) ← readTagChars verbatim 0 0 [] rest
  some (Utf8.lenient octets, rest)

/-- Exclamation marks around word characters, the second one perhaps
missing. -/
def readHandle (rest : List Glyph) : String × List Glyph :=
  let (word, rest) := spanWord (rest.drop 1)
  if startsWith '!' rest then ("!" ++ textOf word ++ "!", rest.drop 1)
  else ("!" ++ textOf word, rest)

def isClosedHandle (handle : String) : Bool :=
  handle.length ≥ 2 && handle.toList.getLast? == some '!'

/-- A tag is followed by white space, in a flow collection also by a comma. -/
def endsTag (inFlow : Bool) (rest : List Glyph) : Bool :=
  endsWord rest || (inFlow && startsWith ',' rest)

def readTag (inFlow : Bool) (rest : List Glyph) :
    Option (Tag × List Glyph) := do
  let (tag, rest) ←
    if startsWith '<' (rest.drop 1) then do
      let (suffix, rest) ← readSuffix true (rest.drop 2)
      if suffix != "" && startsWith '>' rest then
        some (Tag.mk "" suffix, rest.drop 1)
      else
        none
    else
      let (handle, after) := readHandle rest
      if isClosedHandle handle then do
        let (suffix, rest) ← readSuffix false after
        if suffix != "" then some (Tag.mk handle suffix, rest) else none
      else do
        let (suffix, rest) ← readSuffix false (rest.drop 1)
        if suffix = "" then some (Tag.mk "" "!", rest)
        else some (Tag.mk "!" suffix, rest)
  if endsTag inFlow rest then some (tag, rest) else none

inductive Directive where
  | version (major minor : Nat)
  | handle (handle meaning : String)
  deriving DecidableEq, Repr

def readVersionNumber (rest : List Glyph) : Option (Nat × List Glyph) :=
  let (digits, rest) := rest.span fun g => g.char.isDigit
  if digits.isEmpty || 9 < digits.length then none
  else
    some ((digits.filterMap fun g => Integer.digit? g.char).foldl
      (fun n d => n * 10 + d) 0, rest)

def readVersion (rest : List Glyph) : Option (Directive × List Glyph) := do
  let (major, rest) ← readVersionNumber (skipBlanks rest)
  if startsWith '.' rest then
    let (minor, rest) ← readVersionNumber (rest.drop 1)
    some (.version major minor, rest)
  else
    none

def readHandleDirective (rest : List Glyph) :
    Option (Directive × List Glyph) := do
  let rest := skipBlanks rest
  if startsWith '!' rest then
    let (handle, rest) := readHandle rest
    if handle != "!" && !isClosedHandle handle then none
    else if !(front? rest).any isBlank then none
    else
      let (meaning, rest) ← readSuffix true (skipBlanks rest)
      if meaning != "" && endsWord rest then
        some (.handle handle meaning, rest)
      else
        none
  else
    none

def readDirective (rest : List Glyph) : Option (Directive × List Glyph) := do
  let (name, rest) := spanWord rest
  let (directive, rest) ←
    match textOf name with
    | "YAML" => if endsWord rest then readVersion rest else none
    | "TAG" => if endsWord rest then readHandleDirective rest else none
    | _ => none
  let rest ← skipComment? rest
  some (directive, rest)

end SchemaLedger.Yaml
