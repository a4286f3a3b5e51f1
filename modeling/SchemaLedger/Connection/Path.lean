import SchemaLedger.Sql.Name
import SchemaLedger.Text.Percent
/-!
# Paths of URLs

A path is a list of segments. Segments of one dot vanish and segments of two
take the segment before them away; a dot may be written as an escape. A path
that ends in such a segment ends in a slash.
-/

namespace SchemaLedger

inductive SchemeKind where
  | file
  | web
  | other
  deriving DecidableEq, Repr

namespace SchemeKind

def ofScheme (scheme : String) : SchemeKind :=
  if scheme = "file" then file
  else if ["http", "https", "ws", "wss", "ftp"].contains scheme then web
  else other

/-- Backslashes count as slashes, and hosts are domains. -/
def isSpecial : SchemeKind → Bool
  | other => false
  | _ => true

/-- The port that need not be written. -/
def defaultPort? (scheme : String) : Option Nat :=
  [("http", 80), ("ws", 80), ("https", 443), ("wss", 443), ("ftp", 21)].lookup
    scheme

def isSlash (k : SchemeKind) (c : Char) : Bool :=
  c == '/' || (k.isSpecial && c == '\\')

end SchemeKind

namespace Path

def keep (c : Char) : Bool :=
  0x20 < c.toNat && c.toNat < 0x7F && !("\"<>`#?{}".toList.contains c)

def isSingleDot (s : List Char) : Bool :=
  s == ['.'] || s.map Char.toLower == ['%', '2', 'e']

def isDoubleDot (s : List Char) : Bool :=
  let t := s.map Char.toLower
  t == ['.', '.'] || t == ['.', '%', '2', 'e'] || t == ['%', '2', 'e', '.']
    || t == ['%', '2', 'e', '%', '2', 'e']

/-- The segment names a drive: a letter and a colon, or a bar for it. -/
def isDrive : List Char → Bool
  | [c, d] => c.isAlpha && (d == ':' || d == '|')
  | _ => false

def cut (k : SchemeKind) : List Char → List (List Char)
  | [] => [[]]
  | c :: cs =>
    if k.isSlash c then
      [] :: cut k cs
    else
      match cut k cs with
      | [] => [[c]]
      | s :: ss => (c :: s) :: ss

/-- Take the last segment away. The drive of a file stays. The segments come
in reverse. -/
def shorten (k : SchemeKind) : List (List Char) → List (List Char)
  | [] => []
  | [s] => if k = .file && isDrive s then [s] else []
  | _ :: rest => rest

/-- A segment as it is kept. The first one of a file may be a drive. -/
def kept (k : SchemeKind) (before : List (List Char)) (s : List Char) :
    List Char :=
  if k = .file && before.isEmpty && isDrive s then s.take 1 ++ [':']
  else Percent.encode keep s

/-- Put the segments of a text, in order, behind those met before, which come
in reverse. -/
def resolve (k : SchemeKind) :
    List (List Char) → List (List Char) → List (List Char)
  | before, [] => before
  | before, s :: rest =>
    let ends := if rest.isEmpty then [[]] else []
    if isDoubleDot s then resolve k (ends ++ shorten k before) rest
    else if isSingleDot s then resolve k (ends ++ before) rest
    else resolve k (kept k before s :: before) rest

/-- The segments of what follows the first slash of a path. -/
def segments (k : SchemeKind) (text : List Char) : List (List Char) :=
  let all := (resolve k [] (cut k text)).reverse
  if k = .file then
    match all.dropWhile List.isEmpty with
    | [] => [[]]
    | s :: ss => s :: ss
  else
    all

def render (segments : List (List Char)) : List Char :=
  segments.flatMap ('/' :: ·)

@[simp] theorem render_nil : render [] = [] := rfl

@[simp] theorem render_cons (s : List Char) (ss : List (List Char)) :
    render (s :: ss) = '/' :: s ++ render ss := rfl

end Path

end SchemaLedger
