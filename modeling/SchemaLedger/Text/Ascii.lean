import SchemaLedger.Text.Trim
/-!
# ASCII rules on bytes

Scripts arrive as bytes, so the rules that look at them before they are
decoded are stated on bytes: which bytes are blank, and when two bytes are
the same letter.
-/

namespace SchemaLedger.Ascii

/-- Space, tab, line feed, form feed and carriage return are blank. The
vertical tab is not. -/
def isBlank (b : UInt8) : Bool :=
  b == 0x20 || b == 0x09 || b == 0x0A || b == 0x0C || b == 0x0D

def trim (s : List UInt8) : List UInt8 :=
  Text.trim isBlank s

@[simp] theorem trim_nil : trim [] = [] := rfl

def upper (b : UInt8) : UInt8 :=
  if 0x61 ≤ b && b ≤ 0x7A then b - 0x20 else b

def startsWithWord (word s : List UInt8) : Bool :=
  (word.map upper).isPrefixOf (s.map upper)

end SchemaLedger.Ascii
