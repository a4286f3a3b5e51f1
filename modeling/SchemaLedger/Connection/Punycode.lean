/-!
# Punycode

The ASCII form of a label with other characters. The ASCII characters come
first; each other character follows, in the order of code points, as the
number of steps from the one before, in digits of base 36 with thresholds that
adapt to the label.
-/

namespace SchemaLedger.Punycode

/-- Letters for the digits below 26 and decimal digits for the others. -/
def digit (d : Nat) : Char :=
  if d < 26 then Char.ofNat ('a'.toNat + d) else Char.ofNat ('0'.toNat + d - 26)

def threshold (k bias : Nat) : Nat :=
  if k ≤ bias then 1 else min 26 (k - bias)

/-- Divide by 35 until at most 455 is left, counting in steps of 36. -/
def shrink (delta k : Nat) : Nat × Nat :=
  if 455 < delta then shrink (delta / 35) (k + 36) else (delta, k)
termination_by delta
decreasing_by exact Nat.div_lt_self (by omega) (by omega)

def adapt (delta count : Nat) (first : Bool) : Nat :=
  let d := if first then delta / 700 else delta / 2
  let r := shrink (d + d / count) 0
  r.2 + 36 * r.1 / (r.1 + 38)

/-- A number in digits of varying weight, at most `fuel` of them. -/
def number (bias : Nat) : Nat → Nat → Nat → List Char
  | 0, _, _ => []
  | fuel + 1, k, q =>
    let t := threshold k bias
    if q < t then [digit q]
    else
      digit (t + (q - t) % (36 - t)) ::
        number bias fuel (k + 36) ((q - t) / (36 - t))

structure Progress where
  written : List Char
  handled : Nat
  delta : Nat
  bias : Nat

def sweep (basic n : Nat) (label : List Char) (p : Progress) : Progress :=
  label.foldl
    (fun p c =>
      if c.toNat < n then { p with delta := p.delta + 1 }
      else if c.toNat = n then
        { written := p.written ++ number p.bias 20 36 p.delta
          handled := p.handled + 1
          delta := 0
          bias := adapt p.delta (p.handled + 1) (p.handled == basic) }
      else p)
    p

def above (label : List Char) : List Nat :=
  ((label.map Char.toNat).filter (0x80 ≤ ·)).mergeSort.eraseDups

/-- The ASCII form of a label, without the mark in front. -/
def encode (label : List Char) : List Char :=
  let basic := label.filter (·.toNat < 0x80)
  let start : Progress :=
    { written := basic ++ (if basic.isEmpty then [] else ['-'])
      handled := basic.length, delta := 0, bias := 72 }
  ((above label).foldl
    (fun (n, p) m =>
      let p := { p with delta := p.delta + (m - n) * (p.handled + 1) }
      let p := sweep basic.length m label p
      (m + 1, { p with delta := p.delta + 1 }))
    (0x80, start)).2.written

end SchemaLedger.Punycode
