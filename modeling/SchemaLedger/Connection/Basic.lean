import SchemaLedger.Config.Basic
import SchemaLedger.Connection.Form
/-!
# Connection strings

A connection string is a URL. Its scheme names the kind of database, host and
path say where the database is, and the query holds options of the driver.
Those, and everything else spelled with `x-` in front, are taken out; what
remains of the query is for the database.
-/

namespace SchemaLedger

/-- A connection string with the driver's options taken out. -/
structure ConnectionString where
  url : Url
  config : Config
  deriving DecidableEq, Repr

namespace ConnectionString

/-- What becomes of the pairs of a query: the configuration they lead to and
the pairs that are left, or the first option that is refused; and the lines
logged on the way. -/
structure Folded where
  result : Except InputError (Config × List Form.Pair)
  log : List LogLine

/-- Pairs whose key has `x-` in front are meant for the driver, known or
not. -/
def isDriverKey (key : String) : Bool :=
  ['x', '-'].isPrefixOf key.toList

def fold (c : Config) : List Form.Pair → Folded
  | [] => ⟨.ok (c, []), []⟩
  | (key, value) :: rest =>
    match c.applyOption? key value with
    | .error fault => ⟨.error fault, []⟩
    | .ok (some c) => fold c rest
    | .ok none =>
      let later := fold c rest
      if isDriverKey key then
        ⟨later.result,
          ⟨.debug, "Ignoring unrecognized driver option '" ++ key ++ "'"⟩
            :: later.log⟩
      else
        ⟨later.result.map fun r => (r.1, (key, value) :: r.2), later.log⟩

/-- An opaque path does not end in spaces when nothing follows it. -/
def withoutTrailingSpaces (u : Url) : Url :=
  match u.path, u.query?, u.fragment? with
  | .opaqueText text, none, none =>
    { u with
      path := .opaqueText (String.ofList (Text.trimEnd (· == ' ') text.toList)) }
  | _, _, _ => u

def withPairs (u : Url) (pairs : List Form.Pair) : Url :=
  if pairs.isEmpty then withoutTrailingSpaces { u with query? := none }
  else { u with query? := some (Form.render pairs) }

def pairs (u : Url) : List Form.Pair :=
  match u.query? with
  | some query => Form.read query
  | none => []

def ofUrl (base : Config) (u : Url) :
    Except InputError ConnectionString × List LogLine :=
  let folded := fold base (pairs u)
  (folded.result.map fun r => ⟨withPairs u r.2, r.1⟩, folded.log)

def parse (base : Config) (text : String) :
    Except InputError ConnectionString × List LogLine :=
  match Url.parse text with
  | .error fault =>
    (.error (.connectionInvalid (fault.message ++ ": " ++ text)), [])
  | .ok u => ofUrl base u

def scheme (c : ConnectionString) : String :=
  c.url.scheme

/-- Where the database is: the host and the path, as they are written. -/
def location (c : ConnectionString) : String :=
  c.url.hostText?.getD "" ++ c.url.path.render

def redacted (c : ConnectionString) : String :=
  c.url.redacted.render

end ConnectionString

end SchemaLedger
