import SchemaLedger.Proofs.Engine.Querying
import SchemaLedger.Proofs.Sql.Templates
/-!
# The lookup in the catalog

A connection is asked for a relation by a name, and searches its catalog for it. A
lookup says the same in SQL: it counts the tables and views that are listed in the
database under the schema and the table of the name. The engine reads and runs it as
what it is meant to be, and it counts one or more if and only if the search succeeds:
`lookup_answers`.
-/

namespace SchemaLedger

open Engine

namespace Sql

/-- The engine takes the tokens that the rules of SQL do, unless it would be an empty
name. -/
theorem next?_of_nextToken? {s rest : List Char} {token? : Option Token}
    (h : nextToken? s = some (token?, rest)) (hname : token? ≠ some (.name "")) :
    Token.next? s = some (token?, rest) := by
  rw [nextToken?.eq_def] at h
  split at h
  · next tail =>
      obtain ⟨r, hread, hr⟩ := Option.map_eq_some_iff.1 h
      obtain ⟨rfl, rfl⟩ := Prod.mk.inj hr
      have hchars : r.1.isEmpty = false := by
        rw [List.isEmpty_eq_false_iff]
        intro hnil
        exact hname (by rw [hnil])
      have hnext : Token.next? ('"' :: tail) =
          (readQuoted '"' tail).bind fun r => if r.1.isEmpty then none
            else some (some (.name (String.ofList r.1)), r.2) := rfl
      rw [hnext, hread, Option.bind_some, hchars]
      rfl
  · exact h

theorem ofCharsWithin_of_frontTokens {steps : Nat} {s : List Char} {ts : List Token}
    (h : frontTokens steps s = some (ts, [])) (hnames : .name "" ∉ ts) :
    Token.ofCharsWithin steps s = some ts := by
  induction steps generalizing s ts with
  | zero =>
      cases h
      rfl
  | succ steps ih =>
      cases s with
      | nil =>
          rw [Spells.nil _ (Nat.zero_le _)] at h
          cases h
          rfl
      | cons c s =>
          rw [frontTokens_succ] at h
          obtain ⟨⟨token?, rest⟩, hnext, h⟩ := Option.bind_eq_some_iff.1 h
          obtain ⟨⟨tokens, rest'⟩, hrest, h⟩ := Option.bind_eq_some_iff.1 h
          obtain ⟨rfl, rfl⟩ := Prod.mk.inj (Option.some.inj h)
          rw [List.mem_append, not_or] at hnames
          have hname : token? ≠ some (.name "") := by
            rintro rfl
            exact hnames.1 List.mem_cons_self
          rw [Token.ofCharsWithin_succ, next?_of_nextToken? hnext hname]
          simp only [Option.bind_eq_bind, Option.bind_some, ih hrest hnames.2]
          rfl

theorem ofText?_of_tokens? {s : String} {ts : List Token} (h : tokens? s = some ts)
    (hnames : .name "" ∉ ts) : Token.ofText? s = some ts :=
  ofCharsWithin_of_frontTokens (spells_of_tokens? h s.toList.length (Nat.le_refl _))
    hnames

end Sql

namespace Engine

open Sql

namespace Grammar

def lookupCondition (schema table : String) : Exp :=
  .binary .and
    (.binary .and
      (.binary .equal (.column ["table_catalog"]) (.call ["current_database"] []))
      (.binary .equal (.column ["table_schema"]) (.constant (.text schema))))
    (.binary .equal (.column ["table_name"]) (.constant (.text table)))

def listingPath : Path := ["information_schema", "tables"]

def lookupQuery (schema table : String) : Query :=
  .select false [.value .countRows none] (.relation listingPath none)
    (some (lookupCondition schema table)) [] none none

set_option maxRecDepth 20000 in
theorem run_statement_lookup (fuel : Nat) (schema table : String) :
    (statement (fuel + 40)).run ⟨Template.lookup schema table, 0⟩ =
      some (.query (lookupQuery schema table), ⟨[], 0⟩) := by
  cbv

theorem read?_lookupSql (name : String) :
    read? (lookupSql name) =
      some [(.query (lookupQuery (splitName name).schema (splitName name).table), 0)] := by
  have htokens := ofText?_of_tokens? (tokens?_lookupSql name) (by simp [Template.lookup])
  have hscript : (statements (190 + 2)).run
      ⟨Template.lookup (splitName name).schema (splitName name).table, 0⟩ = some _ :=
    run_statements_of_last (by decide) (run_statement_lookup 152 _ _)
  rw [read?, htokens]
  simp only [Option.bind_eq_bind, Option.bind_some]
  rw [show 8 * _ + 8 = 190 + 2 from rfl, hscript]
  rfl

end Grammar

theorem Operator.apply_equal_text (a b : String) :
    Operator.equal.apply (.text a) (.text b) = .ok (.boolean (a == b)) := by
  have hcompare : ((Cell.text a).compare (.text b) == .eq) = (a == b) := by
    rw [Bool.eq_iff_iff, beq_iff_eq, beq_iff_eq]
    exact Std.compare_eq_iff_eq
  rw [← hcompare]
  rfl

theorem Operator.apply_and_boolean (p q : Bool) :
    Operator.and.apply (.boolean p) (.boolean q) = .ok (.boolean (p && q)) := by
  cases p <;> cases q <;> rfl

section Condition

variable {c : Catalogs} {s : Scope} {depth : Nat}

theorem on_bind_column (path : Path) {t : Term} (h : s.lookUp path = .ok t) :
    ((Exp.column path).bind (depth + 1) s).on c = (.ok t, c) := by
  rw [Exp.bind, h]
  rfl

theorem on_bind_constant (cell : Cell) :
    ((Exp.constant cell).bind (depth + 1) s).on c = (.ok (.constant cell), c) := by
  rw [Exp.bind]
  rfl

theorem on_bind_binary (op : Operator) {a b : Exp} {x y : Term}
    (ha : (a.bind depth s).on c = (.ok x, c)) (hb : (b.bind depth s).on c = (.ok y, c)) :
    ((Exp.binary op a b).bind (depth + 1) s).on c = (.ok (.calculation op x y), c) := by
  rw [Exp.bind, Work.on_bind_of_ok ha, Work.on_bind_of_ok hb]
  rfl

theorem on_eval_binary {op : Operator} {params row : List Cell} {x y : Term}
    {a b cell : Cell} (hx : (x.eval params row).on c = (.ok a, c))
    (hy : (y.eval params row).on c = (.ok b, c)) (hcell : op.apply a b = .ok cell) :
    ((Term.binary op x y).eval params row).on c = (.ok cell, c) := by
  rw [Term.eval, Work.on_bind_of_ok hx, Work.on_bind_of_ok hy, Work.on_of, hcell]

def columnIs (i : Nat) (value : String) : Term :=
  .binary .equal (.column i .varchar) (.constant (.text value))

def lookupTerm (catalog schema table : String) : Term :=
  .binary .and (.binary .and (columnIs 0 catalog) (columnIs 1 schema)) (columnIs 2 table)

/-- The row is one that a lookup counts. -/
def isSought (catalog schema table : String) : List Cell → Bool
  | .text a :: .text b :: .text d :: _ => a == catalog && b == schema && d == table
  | _ => false

theorem on_eval_columnIs {i : Nat} {row : List Cell} {a : String}
    (h : row[i]? = some (.text a)) (value : String) :
    ((columnIs i value).eval [] row).on c = (.ok (.boolean (a == value)), c) := by
  refine on_eval_binary (a := .text a) (b := .text value) ?_ ?_
    (Operator.apply_equal_text a value)
  · rw [Term.eval, h]
    rfl
  · rw [Term.eval]
    rfl

theorem on_eval_lookupTerm (catalog schema table a b d : String) (rest : List Cell) :
    ((lookupTerm catalog schema table).eval [] (.text a :: .text b :: .text d :: rest)).on c =
      (.ok (.boolean (a == catalog && b == schema && d == table)), c) := by
  refine on_eval_binary (on_eval_binary (on_eval_columnIs rfl catalog)
    (on_eval_columnIs rfl schema) (Operator.apply_and_boolean _ _))
    (on_eval_columnIs rfl table) (Operator.apply_and_boolean _ _)

theorem cells_of_listed? {catalog tableType : String} {e : Entry} {row : List Cell}
    (h : Relation.listed? catalog tableType e = some row) :
    ∃ rest, row = .text catalog :: .text e.schema :: .text e.name :: rest := by
  unfold Relation.listed? at h
  split at h
  · cases h
    exact ⟨_, rfl⟩
  · cases h
    exact ⟨_, rfl⟩
  · cases h

end Condition

section Lookup

variable {c : Catalogs}

theorem on_rows_listing (hfree : c.find? .table Grammar.listingPath = .ok none) (depth : Nat) :
    (Origin.rows (depth + 1) [] [] (.relation Grammar.listingPath none)).on c =
      (.ok (Relation.listing c), c) := by
  have hpath : Grammar.listingPath.map String.toLower =
      ["information_schema", "tables"] := by decide +kernel
  rw [Origin.rows, Work.on_bind_of_ok (Work.on_find? hfree)]
  dsimp only
  rw [if_pos hpath, Work.on_bind_of_ok (Work.on_get c)]
  rfl

theorem on_ofCondition_lookup
    (hbuiltin : c.find? .scalarMacro ["current_database"] = .ok none)
    (schema table : String) :
    (Term.ofCondition ⟨(Relation.listing c).header, []⟩
      (Grammar.lookupCondition schema table)).on c =
        (.ok (lookupTerm c.name schema table), c) := by
  have hcall (depth : Nat) :
      ((Exp.call ["current_database"] []).bind (depth + 1)
        ⟨(Relation.listing c).header, []⟩).on c = (.ok (.constant (.text c.name)), c) := by
    have hargs : (([] : List Exp).mapM (Exp.bind depth ⟨(Relation.listing c).header, []⟩)).on c =
        (.ok [], c) := rfl
    rw [Exp.bind, Work.on_bind_of_ok hargs, Work.on_bind_of_ok (Work.on_find? hbuiltin)]
    cbv
  have hbind := on_bind_binary .and
    (on_bind_binary .and
      (on_bind_binary .equal
        (on_bind_column ["table_catalog"] (t := .column 0 .varchar) (by cbv)) (hcall 996))
      (on_bind_binary .equal
        (on_bind_column ["table_schema"] (t := .column 1 .varchar) (by cbv))
        (on_bind_constant (.text schema))))
    (on_bind_binary .equal
      (on_bind_column ["table_name"] (t := .column 2 .varchar) (by cbv))
      (on_bind_constant (.text table)))
  rw [Term.ofCondition, depthLimit, Grammar.lookupCondition, Work.on_bind_of_ok hbind]
  rfl

/-- The rows that a lookup counts. -/
def soughtRows (c : Catalogs) (schema table : String) : List (List Cell) :=
  (Relation.listing c).rows.filter (isSought c.name schema table)

theorem exists_listed_of_mem_listing {row : List Cell} (h : row ∈ (Relation.listing c).rows) :
    ∃ catalog tableType e, Relation.listed? catalog tableType e = some row := by
  obtain h | h := List.mem_append.1 h
  · obtain ⟨e, -, he⟩ := List.mem_filterMap.1 h
    exact ⟨_, _, e, he⟩
  · obtain ⟨e, -, he⟩ := List.mem_filterMap.1 h
    exact ⟨_, _, e, he⟩

theorem on_filter_lookup (schema table : String) :
    (Selection.filter [] (some (lookupTerm c.name schema table))
      (Relation.listing c).rows).on c = (.ok (soughtRows c schema table), c) := by
  refine Work.on_filterM fun row hrow => ?_
  obtain ⟨catalog, tableType, e, he⟩ := exists_listed_of_mem_listing hrow
  obtain ⟨rest, rfl⟩ := cells_of_listed? he
  rw [Work.on_bind_of_ok (on_eval_lookupTerm c.name schema table _ _ _ rest), isSought]
  cases catalog == c.name && e.schema == schema && e.name == table <;> rfl

def countTerm : Term :=
  .aggregate .count (.constant (.boolean true))

theorem on_evalRows_countTerm (rows : List (List Cell)) :
    (Selection.evalRows [] rows [countTerm]).on c =
      (.ok [[.integer .bigint rows.length]], c) := by
  have hcells : (rows.mapM fun row => Term.eval [] row (.constant (.boolean true))).on c =
      (.ok (rows.map fun _ => .boolean true), c) :=
    Work.on_mapM fun row _ => by
      rw [Term.eval]
      rfl
  have hpresent : (rows.map fun _ => Cell.boolean true).filter (· != .null) =
      rows.map fun _ => .boolean true :=
    List.filter_eq_self.2 fun cell hcell => by
      obtain ⟨_, -, rfl⟩ := List.mem_map.1 hcell
      rfl
  refine on_evalRows_aggregate hcells ?_
  rw [Aggregate.apply, hpresent, List.length_map]

theorem on_select_lookup (hbuiltin : c.find? .scalarMacro ["current_database"] = .ok none)
    (schema table : String) :
    (Selection.run [] [] (Relation.listing c) false [.value .countRows none]
      (some (Grammar.lookupCondition schema table)) [] none none).on c =
        (.ok ⟨[⟨[], "count_star()", .integer .bigint⟩],
          [[.integer .bigint (soughtRows c schema table).length]]⟩, c) := by
  have hcondition : ((some (Grammar.lookupCondition schema table)).mapM
      (Term.ofCondition ⟨(Relation.listing c).header, []⟩)).on c =
        (.ok (some (lookupTerm c.name schema table)), c) := by
    rw [Option.mapM_some, map_eq_pure_bind,
      Work.on_bind_of_ok (on_ofCondition_lookup hbuiltin schema table)]
    rfl
  have houtputs : ([Item.value .countRows none].mapM
      (Selection.outputs ⟨(Relation.listing c).header, []⟩)).on c =
        (.ok [[⟨"count_star()", countTerm⟩]], c) := by
    cbv
  rw [Selection.run, Work.on_bind_of_ok hcondition, Work.on_bind_of_ok houtputs]
  -- Without an order and a limit, the rows are filtered next.
  change (Selection.filter [] (some (lookupTerm c.name schema table))
    (Relation.listing c).rows >>= _).on c = _
  rw [Work.on_bind_of_ok (on_filter_lookup schema table)]
  change (Selection.evalRows [] (soughtRows c schema table) [countTerm] >>= _).on c = _
  rw [Work.on_bind_of_ok (on_evalRows_countTerm _)]
  cbv

theorem on_run_lookupQuery (hbuiltin : c.find? .scalarMacro ["current_database"] = .ok none)
    (hlisting : c.find? .table Grammar.listingPath = .ok none) (schema table : String) :
    ((Grammar.lookupQuery schema table).run []).on c =
      (.ok ⟨[⟨[], "count_star()", .integer .bigint⟩],
        [[.integer .bigint (soughtRows c schema table).length]]⟩, c) := by
  rw [Query.run, Grammar.lookupQuery, nestingLimit, Query.rows,
    Work.on_bind_of_ok (on_rows_listing hlisting 998)]
  exact on_select_lookup hbuiltin schema table

theorem isSought_listed? (catalog tableType : String) (e : Entry)
    (database schema table : String) :
    ((Relation.listed? catalog tableType e).map (isSought database schema table)).getD false =
      (catalog == database && (sharesNames .table e.definition.kind && e.schema == schema &&
        e.name == table)) := by
  obtain ⟨entrySchema, name, d⟩ := e
  cases d with
  | table t => exact Bool.and_assoc ..
  | view q names columns => exact Bool.and_assoc ..
  | _ => exact (Bool.and_false _).symm

/-- What is counted are the stored relations of exactly these names. -/
theorem length_soughtRows (hname : c.name ≠ Catalogs.temporaryName) (schema table : String) :
    (soughtRows c schema table).length = c.stored.entries.countP fun e =>
      sharesNames .table e.definition.kind && e.schema == schema && e.name == table := by
  have htemporary : (Catalogs.temporaryName == c.name) = false :=
    beq_eq_false_iff_ne.2 hname.symm
  rw [soughtRows, ← List.countP_eq_length_filter, Relation.listing, List.countP_append,
    List.countP_filterMap, List.countP_filterMap]
  simp only [isSought_listed?, htemporary, beq_self_eq_true, Bool.true_and, Bool.false_and,
    List.countP_false]
  rfl

theorem hasRelation_eq_decide_soughtRows (hname : c.name ≠ Catalogs.temporaryName)
    (schema table : String) :
    c.stored.hasRelation schema table = decide (0 < (soughtRows c schema table).length) := by
  rw [Bool.eq_iff_iff, decide_eq_true_iff, length_soughtRows hname, List.countP_pos_iff,
    Catalog.hasRelation, List.any_eq_true]

end Lookup

theorem answer_relationExists {c : Connection} (h : c.aborted = false)
    (name : String) :
    c.answer (.relationExists name) =
      (.ok (c.catalogs.stored.hasRelation (splitName name).schema
        (splitName name).table), c) := by
  simp only [Connection.answer, Connection.reading]
  rw [if_neg (by simp [h])]

namespace Connection

/-- A lookup counts one or more relations if and only if the search in the catalog
finds one. The hypotheses say that the names in its text mean what they are meant to,
and that what is stored can be told from what is temporary. -/
theorem lookup_answers {c : Connection}
    (hbuiltin : c.catalogs.find? .scalarMacro ["current_database"] = .ok none)
    (hlisting : c.catalogs.find? .table Grammar.listingPath = .ok none)
    (hname : c.catalogs.name ≠ Catalogs.temporaryName) (name : String) :
    if c.aborted then
      c.runLast (lookupSql name) [] = (.error .aborted, c) ∧
        c.answer (.relationExists name) =
          (.error (.catalog (lookupSql name) Fault.aborted.message), c)
    else
      ∃ count : Nat,
        c.runLast (lookupSql name) [] =
          (.ok (.rows ⟨[⟨[], "count_star()", .integer .bigint⟩],
            [[.integer .bigint count]]⟩), c) ∧
        c.answer (.relationExists name) = (.ok (decide (0 < count)), c) := by
  have hrun : c.runLast (lookupSql name) [] =
      c.perform (.query (Grammar.lookupQuery (splitName name).schema
        (splitName name).table)) := by
    rw [runLast, Grammar.read?_lookupSql]
    rfl
  cases haborted : c.aborted with
  | true =>
      rw [if_pos rfl, hrun, perform, if_pos haborted]
      refine ⟨rfl, ?_⟩
      simp only [answer, reading]
      rw [if_pos haborted]
  | false =>
      rw [if_neg Bool.false_ne_true]
      refine ⟨(soughtRows c.catalogs (splitName name).schema (splitName name).table).length,
        ?_, ?_⟩
      · rw [hrun]
        refine perform_of_ok haborted ?_
        rw [Statement.execute, map_eq_pure_bind,
          Work.on_bind_of_ok (on_run_lookupQuery hbuiltin hlisting _ _)]
        rfl
      · rw [answer_relationExists haborted, hasRelation_eq_decide_soughtRows hname]

/-- A new database is one of those. -/
example : let catalogs : Catalogs := { name := "app" }
    catalogs.find? .scalarMacro ["current_database"] = .ok none ∧
      catalogs.find? .table Grammar.listingPath = .ok none ∧
      catalogs.name ≠ Catalogs.temporaryName := by
  refine ⟨by cbv, by cbv, by decide⟩

end Connection

end Engine

end SchemaLedger
