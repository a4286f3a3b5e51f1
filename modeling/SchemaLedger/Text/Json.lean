/-!
# Flat JSON objects

An object whose members are numbers, truth values and texts, written on one
line or with one member a line.
-/

namespace SchemaLedger.Json

inductive Scalar where
  | integer (n : Int)
  | boolean (b : Bool)
  | text (s : String)

def hexDigit (n : Nat) : Char :=
  if n < 10 then Char.ofNat ('0'.toNat + n) else Char.ofNat ('a'.toNat + n - 10)

/-- A character inside a JSON text. Quotes, backslashes and control characters
are escaped, by name where they have one. -/
def escapeChar (c : Char) : List Char :=
  match c with
  | '"' => ['\\', '"']
  | '\\' => ['\\', '\\']
  | '\n' => ['\\', 'n']
  | '\r' => ['\\', 'r']
  | '\t' => ['\\', 't']
  | '\x08' => ['\\', 'b']
  | '\x0c' => ['\\', 'f']
  | c =>
    if c.toNat < 0x20 then
      ['\\', 'u', '0', '0', hexDigit (c.toNat / 16), hexDigit (c.toNat % 16)]
    else
      [c]

def quote (s : String) : String :=
  "\"" ++ String.ofList (s.toList.flatMap escapeChar) ++ "\""

def Scalar.render : Scalar → String
  | .integer n => toString n
  | .boolean b => if b then "true" else "false"
  | .text s => quote s

abbrev Object := List (String × Scalar)

def Object.compact (o : Object) : String :=
  "\x7b" ++ ",".intercalate (o.map fun m => quote m.1 ++ ":" ++ m.2.render)
    ++ "\x7d"

/-- The object with one member a line, indented by two blanks. -/
def Object.pretty (o : Object) : String :=
  "\x7b\n" ++ ",\n".intercalate
      (o.map fun m => "  " ++ quote m.1 ++ ": " ++ m.2.render)
    ++ "\n\x7d"

end SchemaLedger.Json
