import SchemaLedger.Proofs.Engine.Cells
import SchemaLedger.Proofs.Version.Opening
/-!
# Rows that hold no record

What a query of the store answers need not be what the store has written. A row holds
a record if its first two columns are integers in the ranges of a key and a version,
of whatever type, and its third one is a truth value or an integer: `IsRecord`. Such
a row is read as the record that it holds. Every other row is refused before any of
it has been used, so the keys are as if it had never been seen, and the same goes for
an answer to the query for the greatest key that is no key: `malformed_refused`.
-/

namespace SchemaLedger

namespace Value

/-- The integer that a value is, whether its type has a sign or not. -/
def integer? : Value → Option Int
  | bigint n => some n.toInt
  | ubigint n => some n.toNat
  | _ => none

/-- The truth value that a value stands for. An integer stands for false if it is
zero. -/
def truth? : Value → Option Bool
  | boolean b => some b
  | v => v.integer?.map (· != 0)

end Value

namespace Row

theorem get_eq_ok_iff {α : Type} {expected : String} {convert : Value → Option α}
    {r : Row} {index : Nat} {a : α} :
    r.get expected convert index = .ok a ↔ r[index]?.bind convert = some a := by
  cases hv : r[index]? with
  | none => simp [get, hv]
  | some v =>
      cases ha : convert v with
      | none => simp [get_of_none hv ha, ha]
      | some b => simp [get_of_some hv ha, ha]

section Conversions

variable {v : Value}

theorem uint64?_eq_some_iff {k : UInt64} :
    uint64? v = some k ↔ v.integer? = some (k.toNat : Int) := by
  cases v with
  | bigint n =>
      rcases Int.lt_or_le n.toInt 0 with hneg | hnonneg
      · rw [uint64?_bigint_of_neg hneg]
        simp only [Value.integer?, Option.some.injEq, reduceCtorEq, false_iff]
        omega
      · obtain ⟨b, hb, hn⟩ := uint64?_bigint_of_nonneg hnonneg
        rw [hb, Value.integer?, ← hn, Option.some_inj, Option.some_inj,
          Int.natCast_inj, UInt64.toNat_inj]
  | ubigint n =>
      rw [uint64?, Value.integer?, Option.some_inj, Option.some_inj, Int.natCast_inj,
        UInt64.toNat_inj]
  | _ => simp [uint64?, Value.integer?]

theorem int64?_eq_some_iff {n : Int64} :
    int64? v = some n ↔ v.integer? = some n.toInt := by
  cases v with
  | bigint m =>
      rw [int64?, Value.integer?, Option.some_inj, Option.some_inj, Int64.toInt_inj]
  | ubigint m =>
      rcases Nat.lt_or_ge m.toNat (2 ^ 63) with hlt | hle
      · obtain ⟨b, hb, hm⟩ := int64?_ubigint_of_lt hlt
        rw [hb, Value.integer?, ← hm, Option.some_inj, Option.some_inj,
          Int64.toInt_inj]
      · have hn := n.toInt_lt
        rw [int64?_ubigint_of_le hle]
        simp only [Value.integer?, Option.some.injEq, reduceCtorEq, false_iff]
        omega
  | _ => simp [int64?, Value.integer?]

theorem bool?_eq_truth? (v : Value) : bool? v = v.truth? := by
  cases v with
  | bigint n =>
      have hzero : (n != 0) = (n.toInt != 0) := by
        rw [Bool.eq_iff_iff, bne_iff_ne, bne_iff_ne, ne_eq, ← Int64.toInt_inj]
        rfl
      exact congrArg some hzero
  | ubigint n =>
      have hzero : (n != 0) = ((n.toNat : Int) != 0) := by
        rw [Bool.eq_iff_iff, bne_iff_ne, bne_iff_ne, ne_eq, ← UInt64.toNat_inj,
          ← Int.natCast_inj]
        rfl
      exact congrArg some hzero
  | _ => rfl

end Conversions

section Getters

variable {r : Row} {index : Nat}

theorem getUInt64_eq_ok_iff {k : UInt64} :
    r.getUInt64 index = .ok k ↔
      r[index]?.bind Value.integer? = some (k.toNat : Int) := by
  rw [getUInt64, get_eq_ok_iff]
  cases r[index]? with
  | none => simp
  | some v => exact uint64?_eq_some_iff

theorem getInt64_eq_ok_iff {n : Int64} :
    r.getInt64 index = .ok n ↔ r[index]?.bind Value.integer? = some n.toInt := by
  rw [getInt64, get_eq_ok_iff]
  cases r[index]? with
  | none => simp
  | some v => exact int64?_eq_some_iff

theorem getBool_eq_ok_iff {b : Bool} :
    r.getBool index = .ok b ↔ r[index]?.bind Value.truth? = some b := by
  rw [getBool, get_eq_ok_iff, funext bool?_eq_truth?]

end Getters

/-- The row holds the record of a version, with the key and the version as numbers. -/
structure IsRecord (row : Row) (sequence version : Int) (dirty : Bool) : Prop where
  sequence_eq : row[0]?.bind Value.integer? = some sequence
  sequence_range : 0 ≤ sequence ∧ sequence < 2 ^ 64
  version_eq : row[1]?.bind Value.integer? = some version
  version_range : -2 ^ 63 ≤ version ∧ version < 2 ^ 63
  dirty_eq : row[2]?.bind Value.truth? = some dirty

end Row

namespace VersionStore

theorem exists_key {n : Int} (h : 0 ≤ n ∧ n < 2 ^ 64) :
    ∃ k : UInt64, (k.toNat : Int) = n := by
  refine ⟨.ofNat n.toNat, ?_⟩
  rw [UInt64.toNat_ofNat_of_lt' (by have : UInt64.size = 2 ^ 64 := rfl; omega),
    Int.toNat_of_nonneg h.1]

theorem key_range (k : UInt64) : 0 ≤ (k.toNat : Int) ∧ (k.toNat : Int) < 2 ^ 64 := by
  have := k.toNat_lt
  omega

section Records

variable {row : Row} {sequence version : Int} {dirty : Bool}

theorem parseRecord_eq_ok_iff {r : VersionRecord} :
    parseRecord row = .ok r ↔ row.getUInt64 0 = .ok r.sequence ∧
      row.getInt64 1 = .ok r.version ∧ row.getBool 2 = .ok r.dirty := by
  rw [parseRecord]
  cases row.getUInt64 0 with
  | error fault => simp [bind, Except.bind]
  | ok k =>
      cases row.getInt64 1 with
      | error fault => simp [bind, Except.bind]
      | ok v =>
          cases row.getBool 2 with
          | error fault => simp [bind, Except.bind]
          | ok b => cases r; simp [bind, Except.bind, pure, Except.pure]

theorem isRecord_of_parseRecord {r : VersionRecord} (h : parseRecord row = .ok r) :
    row.IsRecord r.sequence.toNat r.version.toInt r.dirty := by
  obtain ⟨hsequence, hversion, hdirty⟩ := parseRecord_eq_ok_iff.1 h
  exact {
    sequence_eq := Row.getUInt64_eq_ok_iff.1 hsequence
    sequence_range := key_range r.sequence
    version_eq := Row.getInt64_eq_ok_iff.1 hversion
    version_range := ⟨r.version.le_toInt, r.version.toInt_lt⟩
    dirty_eq := Row.getBool_eq_ok_iff.1 hdirty }

theorem parseRecord_of_isRecord (h : row.IsRecord sequence version dirty) :
    ∃ r, parseRecord row = .ok r ∧ (r.sequence.toNat : Int) = sequence ∧
      r.version.toInt = version ∧ r.dirty = dirty := by
  obtain ⟨k, hk⟩ := exists_key h.sequence_range
  have hv : (Int64.ofInt version).toInt = version :=
    Int64.toInt_ofInt_of_le h.version_range.1 h.version_range.2
  refine ⟨⟨k, .ofInt version, dirty⟩, parseRecord_eq_ok_iff.2 ⟨?_, ?_, ?_⟩, hk, hv, rfl⟩
  · exact Row.getUInt64_eq_ok_iff.2 (hk ▸ h.sequence_eq)
  · exact Row.getInt64_eq_ok_iff.2 (hv.symm ▸ h.version_eq)
  · exact Row.getBool_eq_ok_iff.2 h.dirty_eq

end Records

variable {σ α : Type} {db : Database σ} {table : String} {s s' : Session σ}

/-- The operation has failed with the query, and has left the keys as they were. -/
def Refuses (query : String) (s : Session σ)
    (r : Except MigrationError α × Session σ) : Prop :=
  (∃ cause, r.1 = .error (.versionStore query cause)) ∧ r.2.keys = s.keys

def Sees (sequence : Int) (s s' : Session σ) : Prop :=
  ∃ k : UInt64, (k.toNat : Int) = sequence ∧ s'.keys = s.keys.observe k

section ReadCurrent

variable {row : Row} {rows : List Row}

theorem readCurrent_of_isRecord {sequence version : Int} {dirty : Bool}
    (hcall : s.call db (.query .data (latestSql table)) = (.ok (row :: rows), s'))
    (h : row.IsRecord sequence version dirty) :
    let r := (readCurrent db table).run s
    (∃ state : VersionState, r.1 = .ok state ∧ state.version.toInt = version ∧
      state.dirty = dirty) ∧ Sees sequence s r.2 := by
  intro r
  obtain ⟨record, hrecord, hsequence, hversion, hdirty⟩ := parseRecord_of_isRecord h
  have hr : r = (.ok record.state,
      { s' with keys := s'.keys.observe record.sequence }) := by
    rw [show r = _ from run_readCurrent_of_row hcall, hrecord]
  rw [hr]
  refine ⟨⟨_, rfl, hversion, hdirty⟩, record.sequence, hsequence, ?_⟩
  rw [← Session.keys_of_call hcall]

theorem readCurrent_refuses
    (hcall : s.call db (.query .data (latestSql table)) = (.ok (row :: rows), s'))
    (h : ∀ sequence version dirty, ¬ row.IsRecord sequence version dirty) :
    Refuses (latestSql table) s ((readCurrent db table).run s) := by
  rw [run_readCurrent_of_row hcall]
  cases hparse : parseRecord row with
  | ok r => exact absurd (isRecord_of_parseRecord hparse) (h _ _ _)
  | error cause => exact ⟨⟨cause, rfl⟩, Session.keys_of_call hcall⟩

end ReadCurrent

section EnsureTable

variable {rows : List Row}

def keyCell? (rows : List Row) : Option Value :=
  rows.head?.bind List.head?

/-- The answer for a table without rows, or for none at all. -/
def NamesNoKey (rows : List Row) : Prop :=
  keyCell? rows = none ∨ keyCell? rows = some .null

theorem run_observeStored_of_namesNoKey
    (hcall : s.call db (.query .data (maxKeySql table)) = (.ok rows, s'))
    (h : NamesNoKey rows) : (observeStored db table).run s = (.ok (), s') := by
  rw [observeStored, Action.run_call_bind_of_ok hcall]
  obtain _ | ⟨_ | ⟨v, row⟩, _⟩ := rows
  · rfl
  · rfl
  · obtain rfl : v = .null := by simpa [NamesNoKey, keyCell?] using h
    rfl

theorem exists_run_observeStored
    (hcall : s.call db (.query .data (maxKeySql table)) = (.ok rows, s'))
    (h : ¬ NamesNoKey rows) :
    ∃ row : Row, row[0]? = keyCell? rows ∧
      (observeStored db table).run s =
        (column (maxKeySql table) (row.getUInt64 0) >>= observe).run s' := by
  rw [observeStored, Action.run_call_bind_of_ok hcall]
  obtain _ | ⟨_ | ⟨v, row⟩, _⟩ := rows
  · exact absurd (Or.inl rfl) h
  · exact absurd (Or.inl rfl) h
  · refine ⟨v :: row, rfl, ?_⟩
    cases v with
    | null => exact absurd (Or.inr rfl) h
    | _ => rfl

theorem observeStored_of_key {n : Int}
    (hcall : s.call db (.query .data (maxKeySql table)) = (.ok rows, s'))
    (hcell : (keyCell? rows).bind Value.integer? = some n) (hn : 0 ≤ n ∧ n < 2 ^ 64) :
    ((observeStored db table).run s).1 = .ok () ∧
      Sees n s ((observeStored db table).run s).2 := by
  have hnames : ¬ NamesNoKey rows := by
    rintro (h | h) <;> simp [h, Value.integer?] at hcell
  obtain ⟨row, hrow, hrun⟩ := exists_run_observeStored hcall hnames
  obtain ⟨k, hk⟩ := exists_key hn
  have hkey : row.getUInt64 0 = .ok k :=
    Row.getUInt64_eq_ok_iff.2 (by rw [hrow, hcell, hk])
  have hkeys := congrArg (SequenceKeys.observe · k) (Session.keys_of_call hcall)
  rw [hrun, hkey, run_column_bind]
  exact ⟨rfl, k, hk, hkeys⟩

theorem observeStored_refuses
    (hcall : s.call db (.query .data (maxKeySql table)) = (.ok rows, s'))
    (hnames : ¬ NamesNoKey rows)
    (hcell : ∀ n, (keyCell? rows).bind Value.integer? = some n →
      ¬ (0 ≤ n ∧ n < 2 ^ 64)) :
    Refuses (maxKeySql table) s ((observeStored db table).run s) := by
  obtain ⟨row, hrow, hrun⟩ := exists_run_observeStored hcall hnames
  rw [hrun, run_column_bind]
  cases hkey : row.getUInt64 0 with
  | ok k =>
      rw [Row.getUInt64_eq_ok_iff, hrow] at hkey
      exact absurd (key_range k) (hcell _ hkey)
  | error cause => exact ⟨⟨cause, rfl⟩, Session.keys_of_call hcall⟩

end EnsureTable

/-- A row is read as the record that it holds, if it holds one, and is otherwise
refused. The same goes for the greatest key where a table is found, except that an
answer without a key stands for an empty table. Whatever is refused has left the keys
as they were. -/
theorem malformed_refused (db : Database σ) (table : String) (s : Session σ) :
    (∀ row rows d, db.step (.query .data (latestSql table)) s.database =
        (.ok (row :: rows), d) →
      let r := (readCurrent db table).run s
      (∀ sequence version dirty, row.IsRecord sequence version dirty →
        (∃ state : VersionState, r.1 = .ok state ∧ state.version.toInt = version ∧
          state.dirty = dirty) ∧ Sees sequence s r.2) ∧
      ((∀ sequence version dirty, ¬ row.IsRecord sequence version dirty) →
        Refuses (latestSql table) s r)) ∧
    (∀ rows d d', db.step (.relationExists table) s.database = (.ok true, d) →
        db.step (.query .data (maxKeySql table)) d = (.ok rows, d') →
      let r := (ensureTable db table).run s
      (NamesNoKey rows → r.1 = .ok false ∧ r.2.keys = s.keys) ∧
      (∀ n, (keyCell? rows).bind Value.integer? = some n → 0 ≤ n ∧ n < 2 ^ 64 →
        r.1 = .ok false ∧ Sees n s r.2) ∧
      (¬ NamesNoKey rows →
        (∀ n, (keyCell? rows).bind Value.integer? = some n →
          ¬ (0 ≤ n ∧ n < 2 ^ 64)) →
        Refuses (maxKeySql table) s r)) := by
  constructor
  · intro row rows d hstep r
    obtain ⟨s', hcall, -⟩ := Session.call_of_step hstep
    exact ⟨fun _ _ _ h => readCurrent_of_isRecord hcall h,
      fun h => readCurrent_refuses hcall h⟩
  · intro rows d d' hlookup hquery r
    obtain ⟨s₁, hfound, rfl⟩ := Session.call_of_step hlookup
    let found := s₁.logged .debug ("Migrations table " ++ table ++ " already exists")
    obtain ⟨s₂, hcall, -⟩ := Session.call_of_step (s := found) hquery
    have hkeys : found.keys = s.keys :=
      (Session.keys_logged s₁ _ _).trans (Session.keys_of_call hfound)
    rw [show r = _ from run_ensureTable_of_found hfound]
    refine ⟨fun hnames => ?_, fun n hcell hn => ?_, fun hnames hcell => ?_⟩
    · rw [run_observeStored_of_namesNoKey hcall hnames]
      exact ⟨rfl, (Session.keys_of_call hcall).trans hkeys⟩
    · obtain ⟨hok, k, hk, hsees⟩ := observeStored_of_key hcall hcell hn
      rw [hok]
      exact ⟨rfl, k, hk, hkeys ▸ hsees⟩
    · obtain ⟨⟨cause, hcause⟩, hkept⟩ := observeStored_refuses hcall hnames hcell
      rw [hcause]
      exact ⟨⟨cause, rfl⟩, hkept.trans hkeys⟩

/-- A database that has every relation and answers every query with these rows. -/
def answering (rows : List Row) : Database Unit where
  name := "answering"
  step
    | .relationExists _, _ => (.ok true, ())
    | .query _ _, _ => (.ok rows, ())
    | _, _ => (.error .closed, ())

/-- A row with a key that lies above those seen, and with a text where the flag should
be: the key is not seen. An integer will do for the flag. A negative greatest key is
refused. -/
theorem malformed_refused_of_text_flag :
    let s : Session Unit := { database := (), keys := ⟨7⟩ }
    let read row := (readCurrent (answering [row]) "versions").run s
    Refuses (latestSql "versions") s (read [.ubigint 9, .bigint 3, .text "true"]) ∧
    Sees 9 s (read [.bigint 9, .ubigint 3, .bigint (-2)]).2 ∧
    Refuses (maxKeySql "versions") s
      ((ensureTable (answering [[.bigint (-1)]]) "versions").run s) := by
  intro s read
  have hread row := (malformed_refused (answering [row]) "versions" s).1 row [] () rfl
  have hensure := (malformed_refused (answering [[.bigint (-1)]]) "versions" s).2
    [[.bigint (-1)]] () () rfl rfl
  refine ⟨(hread _).2 fun _ _ _ h => ?_,
    ((hread [.bigint 9, .ubigint 3, .bigint (-2)]).1 9 3 true ⟨rfl, by decide, rfl,
      by decide, rfl⟩).2,
    hensure.2.2 (by simp [NamesNoKey, keyCell?]) fun n hn => ?_⟩
  · cases h.dirty_eq
  · obtain rfl : -1 = n := Option.some.inj hn
    decide

end VersionStore

end SchemaLedger
