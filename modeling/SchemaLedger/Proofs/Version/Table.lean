import SchemaLedger.Proofs.Driver.Actions
import SchemaLedger.Version.Store
/-!
# The migrations table

What the version store relies on its database for, and what its three operations
do to the table and to the keys of the one who calls them. The table is given by
the rows that it holds, if it exists: `Faithful` says of each call that the store
makes how it changes those and what it answers. Any of the calls may fail, and
then it has changed nothing.

Finding the table and reading the current record leave the rows as they are, and
leave keys that lie at or above all keys stored. Adding a record puts it behind
the rows, with a key that none of them has.
-/

namespace SchemaLedger

namespace SequenceKeys

theorem lt_succ {key : UInt64} (h : key ≠ maxKey) : key < succ key := by
  have hne : key.toNat ≠ maxKey.toNat := mt UInt64.toNat_inj.1 h
  have hmax : maxKey.toNat = 2 ^ 64 - 1 := rfl
  have hlt := key.toNat_lt
  rw [succ, if_neg h, UInt64.lt_iff_toNat_lt, UInt64.toNat_add]
  simp only [UInt64.toNat_ofNat]
  omega

theorem le_succ (key : UInt64) : key ≤ succ key := by
  by_cases h : key = maxKey
  · rw [succ, if_pos h]
    exact UInt64.le_of_eq h
  · exact UInt64.le_of_lt (lt_succ h)

theorem le_max (a b : UInt64) : a ≤ max a b ∧ b ≤ max a b := by
  have hmax : max a b = if a ≤ b then b else a := rfl
  rw [hmax]
  split
  · next h => exact ⟨h, UInt64.le_refl b⟩
  · next h => exact ⟨UInt64.le_refl a, UInt64.le_of_lt (UInt64.not_le.1 h)⟩

theorem le_issue (k : SequenceKeys) (now : UInt64) : k.last ≤ k.issue now :=
  UInt64.le_trans (le_succ k.last) (le_max now (succ k.last)).2

theorem lt_issue {k : SequenceKeys} (h : k.last ≠ maxKey) (now : UInt64) :
    k.last < k.issue now :=
  UInt64.lt_of_lt_of_le (lt_succ h) (le_max now (succ k.last)).2

end SequenceKeys

namespace VersionStore

def key (row : Row) : UInt64 :=
  (row[0]?.bind Row.uint64?).getD 0

theorem getUInt64_eq_key {row : Row} {k : UInt64}
    (h : row.getUInt64 0 = .ok k) : key row = k := by
  rw [Row.getUInt64, Row.get] at h
  rw [key]
  split at h
  · cases h
  · next v hv =>
      split at h
      · next a ha =>
          cases h
          rw [hv, Option.bind_some, ha, Option.getD_some]
      · cases h

theorem getUInt64_of_parseRecord {row : Row} {r : VersionRecord}
    (h : parseRecord row = .ok r) : row.getUInt64 0 = .ok r.sequence := by
  rw [parseRecord] at h
  cases hk : row.getUInt64 0 with
  | error fault => rw [hk] at h; cases h
  | ok k =>
      rw [hk] at h
      cases hv : row.getInt64 1 with
      | error fault => rw [hv] at h; cases h
      | ok v =>
          rw [hv] at h
          cases hb : row.getBool 2 with
          | error fault => rw [hb] at h; cases h
          | ok b =>
              rw [hb] at h
              cases h
              rfl

theorem parseRecord_parameters (r : VersionRecord) :
    parseRecord (parameters r) = .ok r := by
  obtain ⟨sequence, version, dirty⟩ := r
  cases dirty <;> rfl

@[simp] theorem key_parameters (r : VersionRecord) :
    key (parameters r) = r.sequence := rfl

/-- A row with the greatest of all keys. -/
def IsLatest (rows : List Row) (row : Row) : Prop :=
  row ∈ rows ∧ ∀ other ∈ rows, key other ≤ key row

theorem eq_of_isLatest_append_singleton {rows : List Row} {row row' : Row}
    (hkey : ∀ other ∈ rows, key other < key row)
    (h : IsLatest (rows ++ [row]) row') : row' = row := by
  rcases List.mem_append.1 h.1 with hmem | hmem
  · have hle := h.2 row (by simp)
    exact absurd (hkey row' hmem) (UInt64.not_lt.2 hle)
  · exact List.mem_singleton.1 hmem

variable {σ : Type}

/-- The calls of the version store do to the table, and answer, what they are
meant to, or fail and leave it alone. Nothing is asked of the answer to the
lookup in the catalog. -/
structure Faithful (db : Database σ) (table : String)
    (rows? : σ → Option (List Row)) : Prop where
  lookup (d : σ) : rows? (db.step (.relationExists table) d).2 = rows? d
  create (d : σ) :
    match db.step (.execute .schema (createSql table)) d with
    | (.ok _, d') => rows? d = none ∧ rows? d' = some []
    | (.error _, d') => rows? d' = rows? d
  maxKey (d : σ) :
    match db.step (.query .data (maxKeySql table)) d with
    | (.ok answer, d') => rows? d' = rows? d ∧ ∃ rows, rows? d = some rows ∧
      (rows = [] ∧ answer = [[.null]] ∨
        ∃ row, IsLatest rows row ∧ answer = [row.take 1])
    | (.error _, d') => rows? d' = rows? d
  latest (d : σ) :
    match db.step (.query .data (latestSql table)) d with
    | (.ok answer, d') => rows? d' = rows? d ∧ ∃ rows, rows? d = some rows ∧
      (rows = [] ∧ answer = [] ∨ ∃ row, IsLatest rows row ∧ answer = [row])
    | (.error _, d') => rows? d' = rows? d
  /-- The sequence key is the primary key of the table. -/
  insert (r : VersionRecord) (d : σ) :
    match db.step (.transact (insertSql table) (parameters r)) d with
    | (.ok _, d') => ∃ rows, rows? d = some rows ∧
      (∀ row ∈ rows, key row ≠ r.sequence) ∧
      rows? d' = some (rows ++ [parameters r])
    | (.error _, d') => rows? d' = rows? d

/-- The first of the rows with the greatest key. -/
def latestRow? : List Row → Option Row
  | [] => none
  | row :: rows =>
    match latestRow? rows with
    | none => some row
    | some other => if key other ≤ key row then some row else some other

theorem latestRow?_eq_none {rows : List Row} (h : latestRow? rows = none) :
    rows = [] := by
  cases rows with
  | nil => rfl
  | cons row rows =>
      rw [latestRow?] at h
      split at h
      · cases h
      · split at h <;> cases h

theorem isLatest_of_latestRow? {rows : List Row} {row : Row}
    (h : latestRow? rows = some row) : IsLatest rows row := by
  induction rows generalizing row with
  | nil => cases h
  | cons first rows ih =>
      rw [latestRow?] at h
      cases hrest : latestRow? rows with
      | none =>
          rw [hrest] at h
          cases h
          rw [latestRow?_eq_none hrest]
          exact ⟨List.mem_singleton_self _, by simp⟩
      | some other =>
          rw [hrest] at h
          obtain ⟨hmem, hmax⟩ := ih hrest
          simp only at h
          split at h
          · next hle =>
              cases h
              refine ⟨List.mem_cons_self, List.forall_mem_cons.2
                ⟨UInt64.le_refl _, fun third hthird => ?_⟩⟩
              exact UInt64.le_trans (hmax third hthird) hle
          · next hle =>
              cases h
              exact ⟨List.mem_cons_of_mem _ hmem, List.forall_mem_cons.2
                ⟨UInt64.le_of_lt (UInt64.not_le.1 hle), hmax⟩⟩

/-- A database that holds a migrations table, or does not hold it yet, and
nothing else. -/
def soleTable (table : String) : Database (Option (List Row)) where
  name := "table"
  step
    | .relationExists name, rows? => (.ok (name = table ∧ rows?.isSome), rows?)
    | .execute _ sql, none =>
      if sql = createSql table then (.ok 0, some [])
      else (.error (.execution sql "syntax"), none)
    | .query _ sql, some rows =>
      if sql = maxKeySql table then
        (.ok [((latestRow? rows).map (·.take 1)).getD [.null]], some rows)
      else if sql = latestSql table then
        (.ok (latestRow? rows).toList, some rows)
      else (.error (.execution sql "syntax"), some rows)
    | .transact sql params, some rows =>
      if sql = insertSql table ∧ ∀ row ∈ rows, key row ≠ key params then
        (.ok 1, some (rows ++ [params]))
      else (.error (.execution sql "constraint"), some rows)
    | _, rows? => (.error (.execution "" "refused"), rows?)

theorem getElem?_toList_append {s t : String} {i : Nat} {c : Char}
    (h : s.toList[i]? = some c) : (s ++ t).toList[i]? = some c := by
  obtain ⟨hlt, -⟩ := List.getElem?_eq_some_iff.1 h
  rw [String.toList_append, List.getElem?_append_left hlt, h]

/-- The two queries differ in the first column that they name. -/
theorem latestSql_ne_maxKeySql (table : String) :
    latestSql table ≠ maxKeySql table := by
  intro h
  have hlatest : (latestSql table).toList[7]? = some 's' :=
    getElem?_toList_append (getElem?_toList_append (by simp))
  have hmax : (maxKeySql table).toList[7]? = some 'm' :=
    getElem?_toList_append (by simp)
  rw [h, hmax] at hlatest
  simp at hlatest

theorem soleTable_faithful (table : String) :
    Faithful (soleTable table) table id where
  lookup d := rfl
  create d := by
    cases d with
    | none => simp [soleTable]
    | some rows => simp [soleTable]
  maxKey d := by
    cases d with
    | none => simp [soleTable]
    | some rows =>
        simp only [soleTable, if_pos]
        refine ⟨trivial, rows, rfl, ?_⟩
        cases hrow : latestRow? rows with
        | none => exact Or.inl ⟨latestRow?_eq_none hrow, rfl⟩
        | some row => exact Or.inr ⟨row, isLatest_of_latestRow? hrow, rfl⟩
  latest d := by
    cases d with
    | none => simp [soleTable]
    | some rows =>
        simp only [soleTable, if_neg (latestSql_ne_maxKeySql table), if_pos]
        refine ⟨trivial, rows, rfl, ?_⟩
        cases hrow : latestRow? rows with
        | none => exact Or.inl ⟨latestRow?_eq_none hrow, rfl⟩
        | some row => exact Or.inr ⟨row, isLatest_of_latestRow? hrow, rfl⟩
  insert r d := by
    cases d with
    | none => simp [soleTable]
    | some rows =>
        dsimp only [soleTable]
        split
        · next hstep =>
            split at hstep
            · next hnew =>
                cases hstep
                exact ⟨rows, rfl, hnew.2, rfl⟩
            · cases hstep
        · next hstep =>
            split at hstep
            · cases hstep
            · cases hstep
              rfl

/-- Every stored row holds a record. -/
def WellFormed (rows? : σ → Option (List Row)) (d : σ) : Prop :=
  ∀ rows, rows? d = some rows → ∀ row ∈ rows, ∃ r, parseRecord row = .ok r

/-- No stored row has a key above those issued or seen. -/
def Covers (rows? : σ → Option (List Row)) (d : σ) (keys : SequenceKeys) :
    Prop :=
  ∀ rows, rows? d = some rows → ∀ row ∈ rows, key row ≤ keys.last

/-- What the operations that look at the table do: they keep its rows, or
create it, and if they succeed then the keys cover the table. -/
structure Looks (rows? : σ → Option (List Row)) (s : Session σ) (ok : Bool)
    (s' : Session σ) : Prop where
  rows : rows? s'.database = rows? s.database ∨
    rows? s.database = none ∧ rows? s'.database = some []
  keys : s.keys.last ≤ s'.keys.last
  covers : ok = true → WellFormed rows? s.database →
    Covers rows? s'.database s'.keys

variable {db : Database σ} {table : String} {rows? : σ → Option (List Row)}

theorem covers_of_isLatest {d : σ} {rows : List Row} {row : Row}
    {keys : SequenceKeys} (hrows : rows? d = some rows)
    (hrow : IsLatest rows row) (hkey : key row ≤ keys.last) :
    Covers rows? d keys := by
  intro rows' hrows' other hother
  obtain rfl : rows = rows' := Option.some.inj (hrows ▸ hrows')
  exact UInt64.le_trans (hrow.2 other hother) hkey

theorem covers_of_nil {d : σ} (hrows : rows? d = some [])
    (keys : SequenceKeys) : Covers rows? d keys := by
  intro rows' hrows' other hother
  obtain rfl : [] = rows' := Option.some.inj (hrows ▸ hrows')
  cases hother

theorem run_observe (k : UInt64) (s : Session σ) :
    (observe k).run s = (.ok (), { s with keys := s.keys.observe k }) := rfl

theorem run_issue (now : UInt64) (s : Session σ) :
    (issue now).run s =
      (.ok (s.keys.issue now), { s with keys := s.keys.issued now }) := rfl

theorem run_column {α : Type} (query : String) (r : Except DatabaseError α)
    (s : Session σ) :
    (column query r).run s = (r.mapError (.versionStore query), s) := by
  cases r <;> rfl

theorem run_column_bind {α β : Type} (query : String) (r : Except DatabaseError α)
    (f : α → Action σ β) (s : Session σ) :
    (column query r >>= f).run s =
      match r with
      | .ok a => (f a).run s
      | .error cause => (.error (.versionStore query cause), s) := by
  have hcolumn := run_column query r s
  cases r with
  | ok a => exact Action.run_bind_of_ok hcolumn f
  | error cause => exact Action.run_bind_of_error hcolumn f

theorem run_readCurrent_of_row {db : Database σ} {table : String} {s s' : Session σ}
    {row : Row} {rows : List Row}
    (hcall : s.call db (.query .data (latestSql table)) = (.ok (row :: rows), s')) :
    (readCurrent db table).run s =
      match parseRecord row with
      | .ok r => (.ok r.state, { s' with keys := s'.keys.observe r.sequence })
      | .error cause => (.error (.versionStore (latestSql table) cause), s') := by
  rw [readCurrent, Action.run_call_bind_of_ok hcall]
  simp only [run_column_bind]
  cases parseRecord row with
  | ok r => rfl
  | error cause => rfl

@[simp] theorem isOk_ok {ε α : Type} (a : α) :
    (.ok a : Except ε α).isOk = true := rfl

@[simp] theorem isOk_error {ε α : Type} (e : ε) :
    (.error e : Except ε α).isOk = false := rfl

theorem isOk_mapError {ε ε' α : Type} (f : ε → ε') (r : Except ε α) :
    (r.mapError f).isOk = r.isOk := by
  cases r <;> rfl

theorem isOk_map {ε α β : Type} (g : α → β) (r : Except ε α) :
    (r.map g).isOk = r.isOk := by
  cases r <;> rfl

theorem looks_of_observe {s s' : Session σ} {rows : List Row} {row : Row}
    {k : UInt64} (hkeep : rows? s'.database = rows? s.database)
    (hkeys : s'.keys = s.keys) (hrows : rows? s.database = some rows)
    (hrow : IsLatest rows row) (hk : row.getUInt64 0 = .ok k) :
    Looks rows? s true { s' with keys := s'.keys.observe k } where
  rows := Or.inl hkeep
  keys := by
    rw [hkeys]
    exact (SequenceKeys.le_max s.keys.last k).1
  covers _ _ := by
    refine covers_of_isLatest (hkeep.trans hrows) hrow ?_
    rw [getUInt64_eq_key hk]
    exact (SequenceKeys.le_max s'.keys.last k).2

theorem looks_of_kept {s s' : Session σ} {ok : Bool}
    (hkeep : rows? s'.database = rows? s.database) (hkeys : s'.keys = s.keys)
    (hcovers : ok = true → WellFormed rows? s.database →
      Covers rows? s.database s.keys) : Looks rows? s ok s' where
  rows := Or.inl hkeep
  keys := UInt64.le_of_eq (by rw [hkeys])
  covers hok hwf := by
    rw [Covers, hkeep, hkeys]
    exact hcovers hok hwf

theorem not_wellFormed {d : σ} {rows : List Row} {row : Row}
    (hrows : rows? d = some rows) (hrow : row ∈ rows)
    (hkey : ∀ k, row.getUInt64 0 ≠ .ok k) : ¬ WellFormed rows? d := by
  intro hwf
  obtain ⟨r, hr⟩ := hwf rows hrows row hrow
  exact hkey r.sequence (getUInt64_of_parseRecord hr)

theorem observeStored_looks (h : Faithful db table rows?) (s : Session σ) :
    let r := (observeStored db table).run s
    Looks rows? s r.1.isOk r.2 := by
  intro r
  have hquery := h.maxKey s.database
  cases hcall : s.call db (.query .data (maxKeySql table)) with
  | mk answer s' =>
      have hkeys := Session.keys_of_call hcall
      rw [Session.step_of_call hcall] at hquery
      cases answer with
      | error cause =>
          have hr : r = _ := Action.run_call_bind_of_error hcall _ _
          rw [hr]
          exact looks_of_kept hquery hkeys nofun
      | ok answer =>
          have hr : r = _ := Action.run_call_bind_of_ok hcall _ _
          rw [hr]
          obtain ⟨hkeep, rows, hrows, ⟨rfl, rfl⟩ | ⟨row, hrow, rfl⟩⟩ := hquery
          · exact looks_of_kept hkeep hkeys fun _ _ => covers_of_nil hrows s.keys
          · -- The answer is the first column of a latest row.
            have hcolumn : ∀ v rest, row = v :: rest →
                Looks rows? s
                  ((column (maxKeySql table) (Row.getUInt64 [v] 0) >>=
                    observe).run s').1.isOk
                  ((column (maxKeySql table) (Row.getUInt64 [v] 0) >>=
                    observe).run s').2 := by
              rintro v rest rfl
              have hcol := run_column (maxKeySql table) (Row.getUInt64 [v] 0) s'
              cases hk : Row.getUInt64 [v] 0 with
              | error cause =>
                  rw [hk] at hcol
                  rw [Action.run_bind_of_error hcol]
                  exact looks_of_kept hkeep hkeys nofun
              | ok k =>
                  rw [hk] at hcol
                  rw [Action.run_bind_of_ok hcol, run_observe]
                  exact looks_of_observe hkeep hkeys hrows hrow hk
            have hnot : (∀ k, row.getUInt64 0 ≠ .ok k) →
                Looks rows? s true s' := fun hkey =>
              looks_of_kept hkeep hkeys fun _ hwf =>
                absurd hwf (not_wellFormed hrows hrow.1 hkey)
            cases row with
            | nil => exact hnot nofun
            | cons v rest =>
                cases v with
                | null => exact hnot nofun
                | _ => exact hcolumn _ rest rfl

theorem Looks.of_kept {s s₁ s' : Session σ} {ok : Bool}
    (h : Looks rows? s₁ ok s') (hkeep : rows? s₁.database = rows? s.database)
    (hkeys : s₁.keys = s.keys) : Looks rows? s ok s' where
  rows := hkeep ▸ h.rows
  keys := hkeys ▸ h.keys
  covers hok hwf := by
    refine h.covers hok ?_
    rw [WellFormed, hkeep]
    exact hwf

theorem looks_of_created {s s' : Session σ}
    (hcreated : rows? s.database = none ∧ rows? s'.database = some [])
    (hkeys : s'.keys = s.keys) : Looks rows? s true s' where
  rows := Or.inr hcreated
  keys := UInt64.le_of_eq (by rw [hkeys])
  covers _ _ := covers_of_nil hcreated.2 s'.keys

theorem ensureTable_looks (h : Faithful db table rows?) (s : Session σ) :
    let r := (ensureTable db table).run s
    Looks rows? s r.1.isOk r.2 := by
  intro r
  have hlookup := h.lookup s.database
  cases hcall : s.call db (.relationExists table) with
  | mk answer s₁ =>
      have hkeys := Session.keys_of_call hcall
      rw [Session.step_of_call hcall] at hlookup
      cases answer with
      | error cause =>
          have hr : r = _ := Action.run_call_bind_of_error hcall _ _
          rw [hr]
          exact looks_of_kept hlookup hkeys nofun
      | ok found =>
          have hr : r = _ := Action.run_call_bind_of_ok hcall _ _
          rw [hr]
          refine Looks.of_kept ?_ hlookup hkeys
          cases found with
          | true =>
              rw [if_pos rfl, Action.run_bind_of_ok (Action.run_log _ _ s₁),
                Action.run_bind_pure, isOk_map]
              exact (observeStored_looks h _).of_kept
                (by rw [Session.database_logged]) (Session.keys_logged s₁ _ _)
          | false =>
              have hcreate := h.create s₁.database
              rw [if_neg (by simp)]
              cases hcall : s₁.call db (.execute .schema (createSql table)) with
              | mk answer s₂ =>
                  have hkeys := Session.keys_of_call hcall
                  rw [Session.step_of_call hcall] at hcreate
                  cases answer with
                  | error cause =>
                      rw [Action.run_call_bind_of_error hcall]
                      exact looks_of_kept hcreate hkeys nofun
                  | ok n =>
                      rw [Action.run_call_bind_of_ok hcall,
                        Action.run_bind_of_ok (Action.run_log _ _ s₂),
                        Action.run_pure]
                      exact looks_of_created hcreate hkeys

/-- Where a database stands whose table holds these rows. -/
def Stands (rows : List Row) (state : VersionState) : Prop :=
  rows = [] ∧ state = .none ∨
    ∃ row r, IsLatest rows row ∧ parseRecord row = .ok r ∧ state = r.state

/-- Whoever reads the current record covers the table, and if the query has
succeeded then the answer is where the database stands. -/
theorem readCurrent_looks (h : Faithful db table rows?) (s : Session σ) :
    let r := (readCurrent db table).run s
    Looks rows? s r.1.isOk r.2 ∧
      ∀ answer d, db.step (.query .data (latestSql table)) s.database =
          (.ok answer, d) → WellFormed rows? s.database →
        ∃ rows state, rows? s.database = some rows ∧ Stands rows state ∧
          r.1 = .ok state := by
  intro r
  have hquery := h.latest s.database
  cases hcall : s.call db (.query .data (latestSql table)) with
  | mk answer s' =>
      have hkeys := Session.keys_of_call hcall
      rw [Session.step_of_call hcall] at hquery ⊢
      cases answer with
      | error cause =>
          have hr : r = _ := Action.run_call_bind_of_error hcall _ _
          rw [hr]
          refine ⟨looks_of_kept hquery hkeys nofun, ?_⟩
          rintro answer d ⟨⟩
      | ok answer =>
          have hr : r = _ := Action.run_call_bind_of_ok hcall _ _
          rw [hr]
          obtain ⟨hkeep, rows, hrows, ⟨rfl, rfl⟩ | ⟨row, hrow, rfl⟩⟩ := hquery
          · exact ⟨looks_of_kept hkeep hkeys fun _ _ =>
              covers_of_nil hrows s.keys,
              fun _ _ _ _ => ⟨[], .none, hrows, Or.inl ⟨rfl, rfl⟩, rfl⟩⟩
          · have hcolumn := run_column (latestSql table) (parseRecord row) s'
            cases hparse : parseRecord row with
            | error cause =>
                rw [hparse] at hcolumn
                simp only [hparse]
                rw [Action.run_bind_of_error hcolumn]
                refine ⟨looks_of_kept hkeep hkeys nofun, fun _ _ _ hwf => ?_⟩
                obtain ⟨record, hrecord⟩ := hwf rows hrows row hrow.1
                rw [hparse] at hrecord
                cases hrecord
            | ok record =>
                rw [hparse] at hcolumn
                simp only [hparse]
                rw [Action.run_bind_of_ok hcolumn,
                  Action.run_bind_of_ok (run_observe record.sequence s'),
                  Action.run_pure]
                exact ⟨looks_of_observe hkeep hkeys hrows hrow
                  (getUInt64_of_parseRecord hparse), fun _ _ _ _ =>
                    ⟨rows, record.state, hrows,
                      Or.inr ⟨row, record, hrow, hparse, rfl⟩, rfl⟩⟩

theorem run_appendRecord (db : Database σ) (table : String) (now : UInt64)
    (version : Int64) (dirty : Bool) (s : Session σ) :
    let record : VersionRecord := ⟨s.keys.issue now, version, dirty⟩
    let answer :=
      db.step (.transact (insertSql table) (parameters record)) s.database
    let r := (appendRecord db table now version dirty).run s
    r.1 = (answer.1.mapError (.versionStore (insertSql table))).map
        (fun _ => record) ∧
      r.2.database = answer.2 ∧ r.2.keys = s.keys.issued now := by
  intro record answer r
  let s₁ : Session σ := { s with keys := s.keys.issued now }
  have hissue : r = _ := Action.run_bind_of_ok (run_issue now s) _
  cases hcall : s₁.call db
      (.transact (insertSql table) (parameters record)) with
  | mk result s₂ =>
      have hstep := Session.step_of_call hcall
      have hanswer : answer = (result, s₂.database) := hstep
      have hkeys := Session.keys_of_call hcall
      rw [hanswer, hissue]
      cases result with
      | error cause =>
          rw [Action.run_call_bind_of_error hcall]
          exact ⟨rfl, rfl, hkeys⟩
      | ok n =>
          rw [Action.run_call_bind_of_ok hcall,
            Action.run_bind_of_ok (Action.run_log _ _ s₂), Action.run_pure]
          exact ⟨rfl, rfl, hkeys⟩

/-- Adding a record puts it behind the rows, under a key issued at the clock
reading that no row has, or fails and keeps them. -/
theorem appendRecord_run (h : Faithful db table rows?) (now : UInt64)
    (version : Int64) (dirty : Bool) (s : Session σ) :
    let r := (appendRecord db table now version dirty).run s
    r.2.keys = s.keys.issued now ∧
      match r.1 with
      | .ok record => record = ⟨s.keys.issue now, version, dirty⟩ ∧
        ∃ rows, rows? s.database = some rows ∧
          (∀ row ∈ rows, key row ≠ record.sequence) ∧
          rows? r.2.database = some (rows ++ [parameters record])
      | .error _ => rows? r.2.database = rows? s.database := by
  intro r
  have hinsert := h.insert ⟨s.keys.issue now, version, dirty⟩ s.database
  obtain ⟨hresult, hdatabase, hkeys⟩ :=
    run_appendRecord db table now version dirty s
  rw [show r.1 = _ from hresult, show r.2.database = _ from hdatabase]
  cases hstep : db.step (.transact (insertSql table)
      (parameters ⟨s.keys.issue now, version, dirty⟩)) s.database with
  | mk answer d' =>
      rw [hstep] at hinsert
      cases answer with
      | error cause => exact ⟨hkeys, hinsert⟩
      | ok n => exact ⟨hkeys, rfl, hinsert⟩

end VersionStore

end SchemaLedger
