import SchemaLedger.Sql.Name
import SchemaLedger.Text.Json
/-!
# Numeric hosts

Addresses of version 4, whose parts may be decimal, octal or hexadecimal and
of which the last may stand for several bytes, and addresses of version 6 in
brackets.
-/

namespace SchemaLedger.Address

def digit? (base : Nat) (c : Char) : Option Nat :=
  let d? :=
    if c.isDigit then some (c.toNat - '0'.toNat)
    else if 'a' ≤ c && c ≤ 'f' then some (c.toNat - 'a'.toNat + 10)
    else if 'A' ≤ c && c ≤ 'F' then some (c.toNat - 'A'.toNat + 10)
    else none
  d?.filter (· < base)

def digits? (base : Nat) (s : List Char) : Option Nat :=
  s.foldl (fun n c => do return (← n) * base + (← digit? base c)) (some 0)

/-- A part of an address of version 4: `0x` begins a hexadecimal number and
`0` an octal one. -/
def part? : List Char → Option Nat
  | [] => none
  | '0' :: 'x' :: s => digits? 16 s
  | '0' :: 'X' :: s => digits? 16 s
  | '0' :: c :: s => digits? 8 (c :: s)
  | s => digits? 10 s

/-- The parts of a host between its dots, without an empty last one. -/
def parts (host : List Char) : List (List Char) :=
  let all := Sql.cut '.' host
  if all.getLast? = some [] then all.dropLast else all

def endsInNumber (host : List Char) : Bool :=
  match (parts host).getLast? with
  | none => false
  | some [] => false
  | some last => last.all Char.isDigit || (part? last).isSome

/-- The address of version 4 that a host is. Every part but the last is a
byte; the last fills the bytes that are left. -/
def v4? (host : List Char) : Option Nat := do
  let texts := parts host
  if texts.length > 4 then none
  let numbers ← texts.mapM part?
  let last ← numbers.getLast?
  let front := numbers.dropLast
  if front.any (255 < ·) || Nat.pow 256 (4 - front.length) ≤ last then none
  return front.foldl (fun n b => n * 256 + b) 0 * Nat.pow 256 (4 - front.length) + last

def renderV4 (n : Nat) : String :=
  ".".intercalate
    ([n / 0x1000000, n / 0x10000 % 256, n / 0x100 % 256, n % 256].map toString)

def group? (s : List Char) : Option Nat :=
  if s.isEmpty || 4 < s.length then none else digits? 16 s

/-- Four decimal bytes without needless zeros, as two groups. -/
def embeddedV4? (s : List Char) : Option (List Nat) := do
  let texts := Sql.cut '.' s
  let bytes ← texts.mapM fun t =>
    if t.isEmpty || 3 < t.length || (t.length > 1 && t.head? == some '0') then
      none
    else
      (digits? 10 t).filter (· < 256)
  match bytes with
  | [a, b, c, d] => some [a * 256 + b, c * 256 + d]
  | _ => none

def groups? (s : List Char) : Option (List Nat) :=
  if s.isEmpty then some []
  else
    let texts := Sql.cut ':' s
    match texts.getLast? with
    | none => none
    | some last => do
      let front ← texts.dropLast.mapM group?
      if last.contains '.' then return front ++ (← embeddedV4? last)
      else return front ++ [← group? last]

def cutGap? : List Char → Option (List Char × List Char)
  | ':' :: ':' :: s => some ([], s)
  | c :: s => (cutGap? s).map fun r => (c :: r.1, r.2)
  | [] => none

/-- The eight groups of an address of version 6. A double colon stands for at
least one group of zeros. -/
def v6? (s : List Char) : Option (List Nat) := do
  match cutGap? s with
  | none =>
    let groups ← groups? s
    if groups.length = 8 then some groups else none
  | some (front, back) =>
    if front.contains '.' then none
    let front ← groups? front
    let back ← groups? back
    let given := front.length + back.length
    if given ≤ 7 then
      some (front ++ List.replicate (8 - given) 0 ++ back)
    else
      none

/-- The runs of zeros in a list of groups, as start and length. -/
def zeroRuns (start : Nat) : List Nat → List (Nat × Nat)
  | [] => []
  | g :: gs =>
    let later := zeroRuns (start + 1) gs
    if g ≠ 0 then later
    else
      match later with
      | (next, length) :: rest =>
        if next = start + 1 then (start, length + 1) :: rest
        else (start, 1) :: later
      | [] => [(start, 1)]

/-- The first of the longest runs of at least two zeros. -/
def gap? (groups : List Nat) : Option (Nat × Nat) :=
  ((zeroRuns 0 groups).filter (1 < ·.2)).foldl
    (fun best r =>
      match best with
      | none => some r
      | some b => if b.2 < r.2 then some r else some b)
    none

def renderGroup (g : Nat) : String :=
  String.ofList (Nat.toDigits 16 g)

def renderV6 (groups : List Nat) : String :=
  let join (gs : List Nat) := ":".intercalate (gs.map renderGroup)
  match gap? groups with
  | none => join groups
  | some (start, length) =>
    join (groups.take start) ++ "::" ++ join (groups.drop (start + length))

example : v4? "0x7f.1".toList = some 0x7F000001 := by decide
example : (v6? "2001:db8::1".toList).map renderV6 = some "2001:db8::1" := by
  decide

end SchemaLedger.Address
