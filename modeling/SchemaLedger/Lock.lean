/-!
# The migration lock

A flag that is taken and given back. It never waits: taking it while it is
held fails, and so does giving it back while it is free.
-/

namespace SchemaLedger

/-- The lock: whether somebody holds it. -/
structure Lock where
  held : Bool := false
  deriving DecidableEq, Repr

/-- Why the lock did not move. -/
inductive LockError where
  | alreadyHeld
  | notHeld
  deriving DecidableEq, Repr

namespace Lock

def acquire (l : Lock) : Except LockError Unit × Lock :=
  if l.held then (.error .alreadyHeld, l) else (.ok (), ⟨true⟩)

def release (l : Lock) : Except LockError Unit × Lock :=
  if l.held then (.ok (), ⟨false⟩) else (.error .notHeld, l)

end Lock

end SchemaLedger
