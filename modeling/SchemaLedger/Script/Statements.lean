import SchemaLedger.Config.Basic
import SchemaLedger.Script.Splitter
/-!
# The statements of a script

A script is one statement as a whole, or is cut into statements, as the
configuration says.
-/

namespace SchemaLedger

/-- The statements that a script still has. -/
inductive Statements where
  /-- The script as one statement, and whether it has been taken already. -/
  | whole (source : Source) (taken : Bool)
  | split (splitter : Splitter)

namespace Statements

def ofConfig (source : Source) (c : Config) : Statements :=
  if c.multiStatement then
    .split (.start source Splitter.semicolon c.statementCap)
  else
    .whole source false

/-- The next statement, none when the script is over. A script that is one
statement is trimmed and dropped when it is empty, as its pieces would be. -/
def next : Statements → Option (Except InputError (List UInt8)) × Statements
  | .whole source true => (none, .whole source true)
  | .whole source false =>
    match source.readAll with
    | (.failed reason, rest) =>
      (some (.error (.scriptUnreadable reason)), .whole rest true)
    | (.bytes bs, rest) =>
      let statement := Ascii.trim bs
      (if statement = [] then none else some (.ok statement), .whole rest true)
  | .split s => (s.next.1, .split s.next.2)

def unread : Statements → Nat
  | .whole source _ => source.size
  | .split s => s.source.size

def weight : Statements → Nat
  | .whole _ taken => (!taken).toNat
  | .split s => s.weight

theorem weight_next_lt {s : Statements} (h : s.next.1.isSome) :
    s.next.2.weight < s.weight := by
  match s with
  | .whole source true => simp [next] at h
  | .whole source false =>
    simp only [next]
    split <;> simp [weight]
  | .split s => exact Splitter.weight_next_lt h

end Statements

end SchemaLedger
