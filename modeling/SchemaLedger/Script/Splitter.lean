import SchemaLedger.InputError
import SchemaLedger.Script.Source
import SchemaLedger.Text.Ascii
/-!
# Cutting a script into statements

The splitter looks for the bytes of a delimiter. It knows no literals,
comments or blocks, so a delimiter inside one of those ends the statement too.
Reading is lazy: another chunk is asked for only when the bytes held contain
no delimiter and are not too long already.

The bytes before `scanFrom` are known not to begin a delimiter, so a search
after another read does not go over them again.
-/

namespace SchemaLedger

def findBytes (pattern : List UInt8) : List UInt8 → Option Nat
  | [] => if pattern = [] then some 0 else none
  | b :: rest =>
    if pattern.isPrefixOf (b :: rest) then some 0
    else (findBytes pattern rest).map (· + 1)

theorem length_le_of_findBytes {pattern bs : List UInt8} {offset : Nat}
    (h : findBytes pattern bs = some offset) :
    offset + pattern.length ≤ bs.length := by
  induction bs generalizing offset with
  | nil =>
    by_cases hp : pattern = []
    · simp [findBytes, hp] at h; simp [hp, ← h]
    · simp [findBytes, hp] at h
  | cons b rest ih =>
    by_cases hp : pattern.isPrefixOf (b :: rest) = true
    · simp only [findBytes, hp, if_true, Option.some.injEq] at h
      have := (List.isPrefixOf_iff_prefix.1 hp).length_le
      omega
    · simp only [findBytes, hp] at h
      obtain ⟨n, hn, rfl⟩ := Option.map_eq_some_iff.1 h
      have := ih hn
      simp only [List.length_cons]
      omega

structure Splitter where
  source : Source
  delimiter : List UInt8
  /-- The longest statement, in bytes and without its delimiter. -/
  cap : Nat
  buffer : List UInt8 := []
  scanFrom : Nat := 0
  atEnd : Bool := false
  finished : Bool := false
  delimiter_ne_nil : delimiter ≠ [] := by decide

namespace Splitter

def semicolon : List UInt8 := [0x3B]

def chunkSize : Nat := 8192

/-- A splitter at the beginning of a script. An empty delimiter stands for the
semicolon. -/
def start (source : Source) (delimiter : List UInt8) (cap : Nat) : Splitter :=
  if h : delimiter = [] then
    { source, cap, delimiter := semicolon }
  else
    { source, cap, delimiter, delimiter_ne_nil := h }

def weight (s : Splitter) : Nat :=
  2 * s.source.size + s.buffer.length + (!s.atEnd).toNat + (!s.finished).toNat

/-- The splitter after an error: it has finished and holds nothing. -/
def stop (s : Splitter) : Splitter :=
  { s with buffer := [], finished := true }

def delimiterAt? (s : Splitter) : Option Nat :=
  (findBytes s.delimiter (s.buffer.drop s.scanFrom)).map (s.scanFrom + ·)

theorem length_le_of_delimiterAt? {s : Splitter} {offset : Nat}
    (h : s.delimiterAt? = some offset) :
    offset + s.delimiter.length ≤ s.buffer.length := by
  obtain ⟨n, hn, rfl⟩ := Option.map_eq_some_iff.1 h
  have := length_le_of_findBytes hn
  have : 0 < s.delimiter.length := List.length_pos_iff.2 s.delimiter_ne_nil
  simp only [List.length_drop] at *
  omega

def cutAt (s : Splitter) (offset : Nat) : Splitter :=
  { s with
    buffer := s.buffer.drop (offset + s.delimiter.length)
    scanFrom := 0 }

theorem weight_cutAt_lt {s : Splitter} {offset : Nat}
    (h : s.delimiterAt? = some offset) : (s.cutAt offset).weight < s.weight := by
  have := length_le_of_delimiterAt? h
  have : 0 < s.delimiter.length := List.length_pos_iff.2 s.delimiter_ne_nil
  simp only [weight, cutAt, List.length_drop]
  omega

/-- The splitter after a read that brought `bs` and left `source`. A delimiter
may have begun in the last bytes held, so those are searched again. -/
def fed (s : Splitter) (bs : List UInt8) (source : Source) : Splitter :=
  { s with
    source
    buffer := s.buffer ++ bs
    scanFrom := s.buffer.length - (s.delimiter.length - 1)
    atEnd := bs.isEmpty }

theorem weight_fed_lt {s : Splitter} {bs : List UInt8} {source : Source}
    (hend : s.atEnd = false)
    (h : s.source.read chunkSize = (.bytes bs, source)) :
    (s.fed bs source).weight < s.weight := by
  have hsize := Source.size_read chunkSize s.source
  rw [h] at hsize
  simp only [Source.Answer.delivered] at hsize
  cases bs with
  | nil => simp_all [weight, fed]
  | cons b bs => simp_all [weight, fed]; omega

/-- The next statement, none when the script is over. Statements are trimmed
and empty ones dropped. One that is too long, and a read that fails, end the
iteration with an error. -/
def next (s : Splitter) : Option (Except InputError (List UInt8)) × Splitter :=
  if s.finished then (none, s)
  else
    match _hd : s.delimiterAt? with
    | some offset =>
      if s.cap < offset then (some (.error (.statementTooLarge s.cap)), s.stop)
      else
        let statement := Ascii.trim (s.buffer.take offset)
        if statement = [] then next (s.cutAt offset)
        else (some (.ok statement), s.cutAt offset)
    | none =>
      if s.cap < s.buffer.length then
        (some (.error (.statementTooLarge s.cap)), s.stop)
      else if _he : s.atEnd then
        let statement := Ascii.trim s.buffer
        (if statement = [] then none else some (.ok statement), s.stop)
      else
        match _hr : s.source.read chunkSize with
        | (.failed reason, source) =>
          (some (.error (.scriptUnreadable reason)), { s with source }.stop)
        | (.bytes bs, source) => next (s.fed bs source)
termination_by s.weight
decreasing_by
  · exact weight_cutAt_lt _hd
  · exact weight_fed_lt (by simpa using _he) _hr

theorem weight_stop_lt {s : Splitter} (h : s.finished = false) :
    s.stop.weight < s.weight := by
  simp only [weight, stop, h, List.length_nil, Bool.not_true, Bool.not_false,
    Bool.toNat_true, Bool.toNat_false]
  omega

theorem weight_next_lt {s : Splitter} (h : s.next.1.isSome) :
    s.next.2.weight < s.weight := by
  fun_induction next s with
  | case1 => simp at h
  | case2 s hf offset hd hcap => exact weight_stop_lt (by simpa using hf)
  | case3 s hf offset hd hcap statement hs ih =>
    exact Nat.lt_trans (ih h) (weight_cutAt_lt hd)
  | case4 s hf offset hd hcap statement hs => exact weight_cutAt_lt hd
  | case5 s hf hd hcap => exact weight_stop_lt (by simpa using hf)
  | case6 s hf hd hcap he statement => exact weight_stop_lt (by simpa using hf)
  | case7 s hf hd hcap he reason source hr =>
    have hsize := Source.size_read chunkSize s.source
    rw [hr] at hsize
    simp only [Source.Answer.delivered, List.length_nil] at hsize
    simp [weight, stop, hf]
    omega
  | case8 s hf hd hcap he bs source hr ih =>
    exact Nat.lt_trans (ih h) (weight_fed_lt (by simpa using he) hr)

end Splitter

end SchemaLedger
