/-!
# Sequence keys

Keys are readings of the wall clock in nanoseconds, moved past the greatest
key already issued or seen when the clock has not moved on by itself.
-/

namespace SchemaLedger

/-- A source of sequence keys: the greatest key issued or seen so far. -/
structure SequenceKeys where
  last : UInt64 := 0
  deriving DecidableEq, Repr

namespace SequenceKeys

def maxKey : UInt64 := 0xFFFFFFFFFFFFFFFF

/-- One more, and the greatest key itself at the end of the range. -/
def succ (key : UInt64) : UInt64 :=
  if key = maxKey then maxKey else key + 1

/-- The key issued at a clock reading; the reading is zero when the clock
gives none. -/
def issue (k : SequenceKeys) (now : UInt64) : UInt64 :=
  max now (succ k.last)

def issued (k : SequenceKeys) (now : UInt64) : SequenceKeys :=
  ⟨k.issue now⟩

def observe (k : SequenceKeys) (key : UInt64) : SequenceKeys :=
  ⟨max k.last key⟩

@[simp] theorem last_issued (k : SequenceKeys) (now : UInt64) :
    (k.issued now).last = k.issue now := rfl

@[simp] theorem last_observe (k : SequenceKeys) (key : UInt64) :
    (k.observe key).last = max k.last key := rfl

end SequenceKeys

end SchemaLedger
