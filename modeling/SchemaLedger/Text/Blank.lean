import SchemaLedger.Text.Trim
/-!
# Blank characters of text

The characters with the Unicode property `White_Space`, and trimming by them.
-/

namespace SchemaLedger.Blank

/-- The code points with the property `White_Space`, as closed ranges. -/
def ranges : List (Nat × Nat) :=
  [(0x09, 0x0D), (0x20, 0x20), (0x85, 0x85), (0xA0, 0xA0), (0x1680, 0x1680),
    (0x2000, 0x200A), (0x2028, 0x2029), (0x202F, 0x202F), (0x205F, 0x205F),
    (0x3000, 0x3000)]

def isBlank (c : Char) : Bool :=
  ranges.any fun r => r.1 ≤ c.toNat && c.toNat ≤ r.2

def trim (s : String) : String :=
  String.ofList (Text.trim isBlank s.toList)

/-- There are 25 blank characters. -/
example : (ranges.map fun r => r.2 + 1 - r.1).sum = 25 := by decide

theorem isBlank_of_isWhitespace {c : Char} (h : c.isWhitespace = true) :
    isBlank c = true := by
  simp only [Char.isWhitespace, Bool.or_eq_true, decide_eq_true_eq] at h
  rcases h with ((h | h) | h) | h <;> subst h <;> decide

end SchemaLedger.Blank
