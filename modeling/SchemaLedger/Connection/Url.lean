import SchemaLedger.Connection.Host
import SchemaLedger.Connection.Path
import SchemaLedger.Text.Trim
/-!
# URLs

A URL in its parts, the reading of a text into them and their normal written
form. Parts are kept as they are written in that form, that is, with escapes.
-/

namespace SchemaLedger

/-- What follows the host: segments, or an opaque text. -/
inductive UrlPath where
  | opaqueText (text : String)
  | segments (list : List (List Char))
  deriving DecidableEq, Repr

def UrlPath.render : UrlPath → String
  | opaqueText text => text
  | segments list => String.ofList (Path.render list)

/-- A URL. One without an authority has no host; an empty host is an authority
that names nobody. -/
structure Url where
  scheme : String
  username : String := ""
  password : String := ""
  host? : Option Host := none
  port? : Option Nat := none
  path : UrlPath
  query? : Option String := none
  fragment? : Option String := none
  deriving DecidableEq, Repr

namespace Url

/-! ## Writing -/

def renderCredentials (u : Url) : String :=
  if u.username = "" && u.password = "" then ""
  else
    u.username ++ (if u.password = "" then "" else ":" ++ u.password) ++ "@"

/-- Everything between the scheme and the path. Two slashes that begin a path
without an authority are kept from looking like one. -/
def renderAuthority (u : Url) : String :=
  match u.host? with
  | some host =>
    "//" ++ u.renderCredentials ++ host.render
      ++ (match u.port? with
        | some port => ":" ++ toString port
        | none => "")
  | none =>
    match u.path with
    | .segments ([] :: _ :: _) => "/."
    | _ => ""

def render (u : Url) : String :=
  u.scheme ++ ":" ++ u.renderAuthority ++ u.path.render
    ++ (match u.query? with
      | some query => "?" ++ query
      | none => "")
    ++ (match u.fragment? with
      | some fragment => "#" ++ fragment
      | none => "")

/-- The host of a URL, none when it is empty. -/
def hostText? (u : Url) : Option String :=
  (u.host?.map Host.render).filter (· ≠ "")

def redacted (u : Url) : Url :=
  if u.password = "" then u else { u with password := "xxxxx" }

/-! ## Reading -/

/-- Control characters and spaces do not count at the ends of a URL. -/
def isMargin (c : Char) : Bool :=
  c.toNat ≤ 0x20

/-- Tabs and line ends do not count anywhere in a URL. -/
def isIgnored (c : Char) : Bool :=
  c == '\t' || c == '\n' || c == '\r'

def significant (text : String) : List Char :=
  (Text.trim isMargin text.toList).filter (!isIgnored ·)

def isSchemeChar (c : Char) : Bool :=
  c.isAlphanum || c == '+' || c == '-' || c == '.'

def readScheme? (s : List Char) : Option (String × List Char) :=
  match s with
  | [] => none
  | c :: _ =>
    if c.isAlpha then
      match s.dropWhile isSchemeChar with
      | ':' :: rest =>
        some (String.ofList ((s.takeWhile isSchemeChar).map Char.toLower), rest)
      | _ => none
    else
      none

def keepInQuery (k : SchemeKind) (c : Char) : Bool :=
  0x20 < c.toNat && c.toNat < 0x7F && !("\"<>#".toList.contains c)
    && !(k.isSpecial && c == '\'')

def keepInFragment (c : Char) : Bool :=
  0x20 < c.toNat && c.toNat < 0x7F && !("\"<>`".toList.contains c)

def keepInCredentials (c : Char) : Bool :=
  Path.keep c && !("/:;=@[\\]^|".toList.contains c)

def endsPath (c : Char) : Bool :=
  c == '?' || c == '#'

def withTail (k : SchemeKind) (u : Url) (tail : List Char) : Url :=
  let query := tail.takeWhile (· ≠ '#')
  let fragment := tail.dropWhile (· ≠ '#')
  { u with
    query? :=
      match query with
      | '?' :: q => some (String.ofList (Percent.encode (keepInQuery k) q))
      | _ => none
    fragment? :=
      match fragment with
      | '#' :: f => some (String.ofList (Percent.encode keepInFragment f))
      | _ => none }

/-- Put a path, a query and a fragment behind a URL. The text of the path
begins after its first slash. -/
def withPath (k : SchemeKind) (u : Url) (s : List Char) : Url :=
  withTail k
    { u with path := .segments (Path.segments k (s.takeWhile (!endsPath ·))) }
    (s.dropWhile (!endsPath ·))

def endsAuthority (k : SchemeKind) (c : Char) : Bool :=
  endsPath c || k.isSlash c

def readCredentials (s : List Char) : String × String :=
  let encode (t : List Char) :=
    String.ofList (Percent.encode keepInCredentials t)
  (encode (s.takeWhile (· ≠ ':')), encode ((s.dropWhile (· ≠ ':')).drop 1))

/-- The length of the host at the front of a text. Colons in brackets belong
to it. -/
def hostLength (k : SchemeKind) : Bool → List Char → Nat
  | _, [] => 0
  | bracketed, c :: cs =>
    if (c == ':' && !bracketed) || endsAuthority k c then 0
    else
      1 + hostLength k
        (if c == '[' then true else if c == ']' then false else bracketed) cs

def readPort (s : List Char) : Except UrlError (Option Nat × List Char) :=
  let digits := s.takeWhile Char.isDigit
  let rest := s.dropWhile Char.isDigit
  let port := digits.foldl (fun n c => n * 10 + (c.toNat - '0'.toNat)) 0
  if 65535 < port then .error .invalidPort
  else
    match rest with
    | c :: _ =>
      if c == '/' || c == '\\' || endsPath c then
        .ok (if digits.isEmpty then none else some port, rest)
      else
        .error .invalidPort
    | [] => .ok (if digits.isEmpty then none else some port, rest)

/-- Read what follows the authority. A URL of a special scheme always has a
path; another has one if there is more than a query and a fragment. -/
def readAfterAuthority (k : SchemeKind) (u : Url) (s : List Char) : Url :=
  match s with
  | [] =>
    if k.isSpecial then withPath k u [] else { u with path := .segments [] }
  | c :: cs =>
    if k.isSlash c then withPath k u cs
    else if endsPath c && !k.isSpecial then
      withTail k { u with path := .segments [] } s
    else
      withPath k u s

/-- The parts of an authority: what stands before its last `@`, if there is
one, and the rest of the text. -/
def cutCredentials (k : SchemeKind) (s : List Char) :
    Option (List Char) × List Char :=
  let authority := s.takeWhile (!endsAuthority k ·)
  let rest := s.dropWhile (!endsAuthority k ·)
  match Sql.cutLast? '@' authority with
  | some (credentials, host) => (some credentials, host ++ rest)
  | none => (none, s)

/-- Read a URL from its authority on. Whoever is named needs a host. -/
def readAuthority (k : SchemeKind) (scheme : String) (s : List Char) :
    Except UrlError Url := do
  let (credentials?, s) := cutCredentials k s
  if credentials? = some [] && (s.head?.any (endsAuthority k)) then
    throw .emptyHost
  let (username, password) := readCredentials (credentials?.getD [])
  let length := hostLength k false s
  let hostText := s.take length
  let rest := s.drop length
  if hostText.isEmpty && k.isSpecial then throw .emptyHost
  let host ← if k.isSpecial then Host.ofDomain hostText else Host.ofOpaque hostText
  if hostText.isEmpty && rest.head? = some ':' then throw .emptyHost
  let (port, rest) ←
    match rest with
    | ':' :: rest => readPort rest
    | _ => pure (none, rest)
  if hostText.isEmpty && (username ≠ "" || password ≠ "") then throw .emptyHost
  return readAfterAuthority k
    { scheme, username, password
      host? := some host
      port? := port.filter (SchemeKind.defaultPort? scheme ≠ some ·)
      path := .segments [] }
    rest

/-- Read the URL of a file from the host on. This machine need not be named,
and a drive is no host; a drive in the path leaves no host either. -/
def readFileHost (s : List Char) : Except UrlError Url := do
  let hostText := s.takeWhile (!endsAuthority .file ·)
  let rest := s.dropWhile (!endsAuthority .file ·)
  let nobody : Url :=
    { scheme := "file", host? := some (.name ""), path := .segments [] }
  if Path.isDrive hostText then return withPath .file nobody s
  if hostText.isEmpty then return readAfterAuthority .file nobody rest
  let host ← Host.ofDomain hostText
  let u := readAfterAuthority .file nobody rest
  match u.path with
  | .segments (first :: _) =>
    if Path.isDrive first || host = .name "localhost" then return u
    return { u with host? := some host }
  | _ => return { u with host? := some host }

def readFile (s : List Char) : Except UrlError Url :=
  let nobody : Url :=
    { scheme := "file", host? := some (.name ""), path := .segments [] }
  match s with
  | [] => .ok (withPath .file nobody [])
  | c :: cs =>
    if SchemeKind.file.isSlash c then
      match cs with
      | d :: ds =>
        if SchemeKind.file.isSlash d then readFileHost ds
        else .ok (withPath .file nobody cs)
      | [] => .ok (withPath .file nobody [])
    else
      .ok (withPath .file nobody s)

def readOther (scheme : String) (s : List Char) : Except UrlError Url :=
  match s with
  | '/' :: '/' :: rest => readAuthority .other scheme rest
  | '/' :: rest => .ok (withPath .other { scheme, path := .segments [] } rest)
  | _ =>
    .ok (withTail .other
      { scheme
        path := .opaqueText (String.ofList
          (Percent.encode Host.keepVisible (s.takeWhile (!endsPath ·)))) }
      (s.dropWhile (!endsPath ·)))

def parse (text : String) : Except UrlError Url :=
  match readScheme? (significant text) with
  | none => .error .relativeWithoutBase
  | some (scheme, rest) =>
    match SchemeKind.ofScheme scheme with
    | .file => readFile rest
    | .web =>
      readAuthority .web scheme (rest.dropWhile (SchemeKind.web.isSlash ·))
    | .other => readOther scheme rest

end Url

end SchemaLedger
