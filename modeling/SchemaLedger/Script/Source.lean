/-!
# Script sources

A source is what the reads of a script will deliver, in order. A read may
deliver fewer bytes than it is asked for, may be interrupted, in which case it
is tried again, and may fail. The end of the list is the end of the script.
-/

namespace SchemaLedger

inductive Delivery where
  /-- Bytes; none at all say that the script has ended. -/
  | bytes (bs : List UInt8)
  /-- The read was interrupted and is tried again. -/
  | interrupted
  /-- The read failed, and so will every later one. -/
  | failed (reason : String)
  deriving DecidableEq, Repr

/-- The deliveries that a script is still to bring. -/
abbrev Source := List Delivery

namespace Source

inductive Answer where
  | bytes (bs : List UInt8)
  | failed (reason : String)
  deriving DecidableEq, Repr

/-- Read at most `limit` bytes, trying again after interruptions. A delivery
that is longer leaves its rest for the next read. -/
def read (limit : Nat) : Source → Answer × Source
  | [] => (.bytes [], [])
  | .interrupted :: rest => read limit rest
  | .failed reason :: rest => (.failed reason, .failed reason :: rest)
  | .bytes bs :: rest =>
    if bs.length ≤ limit then (.bytes bs, rest)
    else (.bytes (bs.take limit), .bytes (bs.drop limit) :: rest)

def readAll : Source → Answer × Source
  | [] => (.bytes [], [])
  | .interrupted :: rest => readAll rest
  | .failed reason :: rest => (.failed reason, .failed reason :: rest)
  | .bytes [] :: rest => (.bytes [], rest)
  | .bytes (b :: bs) :: rest =>
    match readAll rest with
    | (.bytes more, left) => (.bytes (b :: bs ++ more), left)
    | (.failed reason, left) => (.failed reason, left)

def size : Source → Nat
  | [] => 0
  | .bytes bs :: rest => bs.length + size rest
  | .interrupted :: rest => size rest
  | .failed _ :: rest => size rest

@[simp] theorem size_nil : size [] = 0 := rfl

@[simp] theorem size_bytes (bs : List UInt8) (rest : Source) :
    size (.bytes bs :: rest) = bs.length + size rest := rfl

@[simp] theorem size_interrupted (rest : Source) :
    size (.interrupted :: rest) = size rest := rfl

@[simp] theorem size_failed (reason : String) (rest : Source) :
    size (.failed reason :: rest) = size rest := rfl

def Answer.delivered : Answer → List UInt8
  | .bytes bs => bs
  | .failed _ => []

theorem size_read (limit : Nat) (s : Source) :
    size s = (read limit s).1.delivered.length + size (read limit s).2 := by
  fun_induction read limit s with
  | case1 => rfl
  | case2 s ih => simpa using ih
  | case3 => simp [Answer.delivered]
  | case4 bs s hle => simp [Answer.delivered]
  | case5 bs s hle => simp [Answer.delivered]; omega

def ofBytes (bs : List UInt8) : Source := [.bytes bs]

structure Pace where
  /-- The most bytes that one read delivers, if there is such a limit. -/
  step : Option Nat := none
  /-- The offsets at which a read is interrupted, once for each mention. -/
  interruptions : List Nat := []
  /-- The offset at which reads fail, and the reason. -/
  failure : Option (Nat × String) := none

namespace Pace

/-- How many bytes the read at `offset` delivers of `available` ones: no more
than a step, never past an offset where something happens, and at least
one. -/
def stride (p : Pace) (offset available : Nat) : Nat :=
  let stops := p.interruptions ++ (p.failure.map Prod.fst).toList
  let ahead := (stops.filter (offset < ·)).map (· - offset)
  max 1 ((ahead ++ p.step.toList).foldl min available)

/-- The deliveries from `offset` on. Interruptions come before a failure at
the same offset. -/
def deliveries (p : Pace) (offset : Nat) (bs : List UInt8) : Source :=
  List.replicate (p.interruptions.count offset) .interrupted ++
    match p.failure.filter (·.1 == offset) with
    | some (_, reason) => [.failed reason]
    | none =>
      if _h : bs = [] then []
      else
        let n := p.stride offset bs.length
        .bytes (bs.take n) :: deliveries p (offset + n) (bs.drop n)
termination_by bs.length
decreasing_by
  have : 0 < bs.length := List.length_pos_iff.2 _h
  have : 1 ≤ p.stride offset bs.length := by simp only [stride]; omega
  simp only [List.length_drop]
  omega

end Pace

def paced (p : Pace) (bs : List UInt8) : Source :=
  p.deliveries 0 bs

end Source

end SchemaLedger
