import SchemaLedger.Connection.Url
/-!
# Pairs in a query

The query of a URL as a list of pairs. A pair is a key and a value with an
equals sign between them, and pairs are separated by ampersands; a space is
written as a plus sign.
-/

namespace SchemaLedger.Form

abbrev Pair := String × String

def decodePart (s : List Char) : String :=
  let spaced := s.map fun c => if c = '+' then ' ' else c
  Utf8.lenient (Percent.decode (Utf8.encode (String.ofList spaced)))

/-- The pair in a piece of a query. The first equals sign separates; without
one the value is empty. -/
def readPair (s : List Char) : Pair :=
  (decodePart (s.takeWhile (· ≠ '=')),
    decodePart ((s.dropWhile (· ≠ '=')).drop 1))

def read (query : String) : List Pair :=
  ((Sql.cut '&' query.toList).filter (!·.isEmpty)).map readPair

def keep (c : Char) : Bool :=
  c.isAlphanum || "*-._".toList.contains c

def encodePart (s : String) : List Char :=
  s.toList.flatMap fun c => if c = ' ' then ['+'] else Percent.encodeChar keep c

def render (pairs : List Pair) : String :=
  String.ofList (['&'].intercalate
    (pairs.map fun p => encodePart p.1 ++ '=' :: encodePart p.2))

end SchemaLedger.Form
