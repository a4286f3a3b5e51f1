import Mathlib
import SchemaLedger.Proofs.Engine.Tokens
/-!
# Reading the statements of the version store

The engine reads the statement that creates a migrations table, and the query for
its greatest key, as what they are meant to be, with the identifiers of the name
as the path of the table. It refuses them if an identifier is empty or if there
are too many.
-/

namespace SchemaLedger.Engine

namespace Grammar

open Sql VersionStore

theorem run_bind_of_some {α β : Type} {g : Grammar α} {s s' : Unread} {a : α}
    (h : g.run s = some (a, s')) (f : α → Grammar β) :
    (g >>= f).run s = (f a).run s' := by
  rw [StateT.run_bind, h]
  rfl

theorem run_symbol?_of_ne {symbol : String} {ts : List Token}
    (h : ts.head? ≠ some (.symbol symbol)) (parameters : Nat) :
    (symbol? symbol).run ⟨ts, parameters⟩ = some (false, ⟨ts, parameters⟩) := by
  simp [symbol?, peek, h]

theorem run_word?_of_isWord {w : String} {t : Token} (h : t.isWord w = true)
    (ts : List Token) (parameters : Nat) :
    (word? w).run ⟨t :: ts, parameters⟩ = some (true, ⟨ts, parameters⟩) := by
  simp [word?, peek, take, h]

theorem run_wordAmong?_of_not {ws : List String} {t : Token}
    (h : ws.any t.isWord = false) (ts : List Token) (parameters : Nat) :
    (wordAmong? ws).run ⟨t :: ts, parameters⟩ =
      some (false, ⟨t :: ts, parameters⟩) := by
  simp [wordAmong?, peek, h]

theorem run_words?_of_not {w : String} {ws : List String} {t : Token}
    (h : t.isWord w = false) (ts : List Token) (parameters : Nat) :
    (words? (w :: ws)).run ⟨t :: ts, parameters⟩ =
      some (false, ⟨t :: ts, parameters⟩) := by
  simp [words?, h]

theorem run_pathFrom {ts : List Token} (hts : ts.head? ≠ some (.symbol "."))
    (parameters fuel : Nat) (front names : List String) :
    (pathFrom fuel front).run
        ⟨(names.flatMap fun q => [.symbol ".", .name q]) ++ ts, parameters⟩ =
      if names.length < fuel then some (front ++ names, ⟨ts, parameters⟩)
      else none := by
  induction fuel generalizing front names with
  | zero => rfl
  | succ fuel ih =>
      cases names with
      | nil =>
          rw [pathFrom, StateT.run_bind, List.flatMap_nil, List.nil_append,
            run_symbol?_of_ne hts, List.append_nil, List.length_nil,
            if_pos fuel.succ_pos]
          rfl
      | cons q names =>
          have hstep : (pathFrom (fuel + 1) front).run
              ⟨((q :: names).flatMap fun q => [Token.symbol ".", .name q]) ++ ts,
                parameters⟩ =
              (pathFrom fuel (front ++ [q])).run
                ⟨(names.flatMap fun q => [.symbol ".", .name q]) ++ ts,
                  parameters⟩ := rfl
          rw [hstep, ih]
          simp only [List.length_cons, Nat.add_lt_add_iff_right,
            List.append_assoc, List.singleton_append]

/-- Quoted names are a path, but for too many of them. -/
theorem run_path {ts : List Token} (hts : ts.head? ≠ some (.symbol "."))
    (parameters : Nat) (p : String) (ps : List String) :
    path.run ⟨Token.ofPath (p :: ps) ++ ts, parameters⟩ =
      if ps.length < 8 then some (p :: ps, ⟨ts, parameters⟩) else none :=
  run_pathFrom hts parameters 8 [p] ps

/-- The columns of a migrations table, as they are declared. -/
def columns : List ColumnDef :=
  [{ name := "sequence", type := .named ["UBIGINT"] [], key := true },
    { name := "version", type := .named ["BIGINT"] [], notNull := true },
    { name := "dirty", type := .named ["UTINYINT"] [], notNull := true }]

def columnTokens : List Token :=
  [.symbol "(", .word "sequence", .word "UBIGINT", .word "PRIMARY", .word "KEY",
    .symbol ",", .word "version", .word "BIGINT", .word "NOT", .word "NULL",
    .symbol ",", .word "dirty", .word "UTINYINT", .word "NOT", .word "NULL",
    .symbol ")"]

def columnText : String :=
  " (sequence UBIGINT PRIMARY KEY, version BIGINT NOT NULL, "
    ++ "dirty UTINYINT NOT NULL)"

theorem ofText?_columnText : Token.ofText? columnText = some columnTokens := by
  decide +kernel

theorem toList_createSql (table : String) :
    (createSql table).toList =
      "CREATE".toList ++ ' ' :: ("TABLE".toList ++ ' ' ::
        (Token.quotedPath (tableParts table) ++ columnText.toList)) := by
  have hlead : "CREATE TABLE ".toList =
      "CREATE".toList ++ ' ' :: ("TABLE".toList ++ [' ']) := by
    decide
  have htext : ∀ lead name columns rest : String,
      (lead ++ name ++ columns ++ rest).toList =
        lead.toList ++ (name.toList ++ (columns ++ rest).toList) := by
    intro lead name columns rest
    simp only [String.toList_append, List.append_assoc]
  refine (htext "CREATE TABLE " (qualifiedTable table) _ _).trans ?_
  refine (congrArg (· ++ _) hlead).trans ?_
  simp only [List.append_assoc, List.cons_append, List.nil_append]
  rfl

theorem tableParts_ne_nil (table : String) : tableParts table ≠ [] := by
  simp [tableParts]

theorem ofText?_createSql (table : String) :
    Token.ofText? (createSql table) =
      if "" ∈ tableParts table then none
      else some (.word "CREATE" :: .word "TABLE"
        :: (Token.ofPath (tableParts table) ++ columnTokens)) := by
  rw [Token.ofText?, toList_createSql]
  have hcolumns : columnText.toList.head? ≠ some '"' := by decide
  have hspace : ∀ s : List Char,
      (' ' :: s).head?.all (!Token.continuesWord ·) = true := fun _ => rfl
  obtain ⟨p, ps, hparts⟩ := List.exists_cons_of_ne_nil (tableParts_ne_nil table)
  rw [hparts]
  split
  · next hempty =>
      have hpath := Token.Refused.path hempty hcolumns
      exact (Token.Refused.word (by decide) (hspace _)
        (.space (.word (by decide) (hspace _) (.space hpath)))).ofChars?
  · next hnames =>
      have hpath := Token.Reads.path hnames hcolumns
        (Token.reads_of_ofChars? ofText?_columnText)
      exact (Token.Reads.word (by decide) (hspace _)
        (.space (.word (by decide) (hspace _) (.space hpath)))).ofChars?

/-- What follows the name in the declaration of a table. -/
def tableBody (fuel : Nat) (temporary : Bool) (c : OnConflict) (p : Path) :
    Grammar Statement := do
  if ← word? "as" then
    return .createTableAs temporary c p (← query fuel)
  else
    let lines ← bracketed fuel (tableLine fuel)
    let columns := lines.filterMap fun l =>
      match l with
      | .inl column => some column
      | .inr _ => none
    let constraints := lines.filterMap fun l =>
      match l with
      | .inl _ => none
      | .inr constraint => some constraint
    if columns.isEmpty then refuse
    return .createTable temporary c p columns constraints

theorem createTable_eq (fuel : Nat) (temporary replacing : Bool) :
    createTable fuel temporary replacing =
      (conflict replacing >>= fun c => path >>= fun p =>
        tableBody fuel temporary c p) := rfl

theorem run_tableBody (fuel : Nat) (p : Path) :
    (tableBody (fuel + 12) false .refuse p).run ⟨columnTokens, 0⟩ =
      some (.createTable false .refuse p columns [], ⟨[], 0⟩) := by
  cbv

theorem run_createTable (fuel : Nat) (p : String) (ps : List String) :
    (createTable (fuel + 12) false false).run
        ⟨Token.ofPath (p :: ps) ++ columnTokens, 0⟩ =
      if ps.length < 8 then
        some (.createTable false .refuse (p :: ps) columns [], ⟨[], 0⟩)
      else none := by
  have hwords : unlessExists.run ⟨Token.ofPath (p :: ps) ++ columnTokens, 0⟩ =
      some (false, ⟨Token.ofPath (p :: ps) ++ columnTokens, 0⟩) :=
    run_words?_of_not rfl _ 0
  have hconflict : (conflict false).run
      ⟨Token.ofPath (p :: ps) ++ columnTokens, 0⟩ =
        some (.refuse, ⟨Token.ofPath (p :: ps) ++ columnTokens, 0⟩) := by
    rw [conflict, run_bind_of_some hwords]
    rfl
  have hpath := run_path (by simp [columnTokens] : columnTokens.head? ≠ _) 0 p ps
  rw [createTable_eq, run_bind_of_some hconflict]
  split
  · next hlen =>
      rw [if_pos hlen] at hpath
      rw [run_bind_of_some hpath]
      exact run_tableBody fuel (p :: ps)
  · next hlen =>
      rw [if_neg hlen] at hpath
      rw [StateT.run_bind, hpath]
      rfl

theorem run_statement_create (fuel : Nat) (ts : List Token) :
    (statement fuel).run ⟨.word "CREATE" :: .word "TABLE" :: ts, 0⟩ =
      (createTable fuel false false).run ⟨ts, 0⟩ := by
  have hcreate : Token.isWord (.word "CREATE") "create" = true := by
    decide +kernel
  have htable : Token.isWord (.word "TABLE") "table" = true := by
    decide +kernel
  have hreplace : Token.isWord (.word "TABLE") "or" = false := by
    decide +kernel
  have htemporary :
      ["temp", "temporary"].any (Token.isWord (.word "TABLE")) = false := by
    decide +kernel
  rw [statement, run_bind_of_some (run_word?_of_isWord hcreate _ _), if_pos rfl,
    create, run_bind_of_some (run_words?_of_not hreplace _ _),
    run_bind_of_some (run_wordAmong?_of_not htemporary _ _),
    run_bind_of_some (run_word?_of_isWord htable _ _), if_pos rfl]

section Script

variable {t : Token} (ht : t ≠ .symbol ";") {fuel : Nat} {ts : List Token}

include ht

/-- A script of one statement, which takes all tokens. -/
theorem run_statements_of_last {st : Statement} {parameters : Nat}
    (h : (statement (fuel + 2)).run ⟨t :: ts, 0⟩ =
      some (st, ⟨[], parameters⟩)) :
    (statements (fuel + 2)).run ⟨t :: ts, 0⟩ =
      some ([(st, parameters)], ⟨[], parameters⟩) := by
  have hsymbol : (symbol? ";").run ⟨t :: ts, 0⟩ = some (false, ⟨t :: ts, 0⟩) :=
    run_symbol?_of_ne (by simpa using ht) 0
  simp [statements, hsymbol, h, peek]

theorem run_statements_of_none
    (h : (statement (fuel + 2)).run ⟨t :: ts, 0⟩ = none) :
    (statements (fuel + 2)).run ⟨t :: ts, 0⟩ = none := by
  have hsymbol : (symbol? ";").run ⟨t :: ts, 0⟩ = some (false, ⟨t :: ts, 0⟩) :=
    run_symbol?_of_ne (by simpa using ht) 0
  simp [statements, hsymbol, h, peek]

end Script

/-- The statement that creates a migrations table is read with the identifiers of
the name as its path. -/
theorem read?_createSql (table : String) :
    read? (createSql table) =
      if "" ∉ tableParts table ∧ (tableParts table).length ≤ 8 then
        some [(.createTable false .refuse (tableParts table) columns [], 0)]
      else none := by
  obtain ⟨p, ps, hparts⟩ := List.exists_cons_of_ne_nil (tableParts_ne_nil table)
  have htokens := ofText?_createSql table
  rw [hparts] at htokens ⊢
  by_cases hempty : "" ∈ p :: ps
  · rw [if_pos hempty] at htokens
    rw [if_neg (by simp [hempty]), read?, htokens]
    rfl
  · rw [if_neg hempty] at htokens
    obtain ⟨fuel, hfuel⟩ : ∃ fuel, 8 * (Token.word "CREATE" :: .word "TABLE"
        :: (Token.ofPath (p :: ps) ++ columnTokens)).length + 8 = fuel + 12 :=
      ⟨_, (Nat.sub_add_cancel (by simp; omega)).symm⟩
    have hstatement := run_createTable fuel p ps
    rw [← run_statement_create] at hstatement
    rw [read?, htokens]
    simp only [Option.bind_eq_bind, Option.bind_some, hfuel]
    by_cases hlen : ps.length < 8
    · rw [if_pos hlen] at hstatement
      have hscript := run_statements_of_last (by decide) hstatement
      rw [hscript, if_pos ⟨hempty, hlen⟩]
      rfl
    · rw [if_neg hlen] at hstatement
      have hscript := run_statements_of_none (by decide) hstatement
      rw [hscript, if_neg fun h => hlen h.2]
      rfl

theorem toList_maxKeySql (table : String) :
    (maxKeySql table).toList =
      "SELECT".toList ++ ' ' :: ("max".toList ++ '(' :: ("sequence".toList ++
        ')' :: ' ' :: ("FROM".toList ++ ' ' ::
          (Token.quotedPath (tableParts table) ++ [])))) := by
  have htext : (maxKeySql table).toList =
      "SELECT max(sequence) FROM ".toList ++ (qualifiedTable table).toList :=
    String.toList_append (s := "SELECT max(sequence) FROM ")
  have hlead : "SELECT max(sequence) FROM ".toList =
      "SELECT".toList ++ ' ' :: ("max".toList ++ '(' :: ("sequence".toList ++
        ')' :: ' ' :: ("FROM".toList ++ [' ']))) := by
    decide
  rw [htext]
  refine (congrArg (· ++ (qualifiedTable table).toList) hlead).trans ?_
  simp only [List.append_assoc, List.cons_append, List.nil_append,
    List.append_nil]
  rfl

theorem ofText?_maxKeySql {table : String} (h : "" ∉ tableParts table) :
    Token.ofText? (maxKeySql table) =
      some (.word "SELECT" :: .word "max" :: .symbol "(" :: .word "sequence"
        :: .symbol ")" :: .word "FROM"
        :: (Token.ofPath (tableParts table) ++ [])) := by
  obtain ⟨p, ps, hparts⟩ := List.exists_cons_of_ne_nil (tableParts_ne_nil table)
  have hspace : ∀ s : List Char,
      (' ' :: s).head?.all (!Token.continuesWord ·) = true := fun _ => rfl
  have hopen : ∀ s : List Char,
      ('(' :: s).head?.all (!Token.continuesWord ·) = true := fun _ => rfl
  have hclose : ∀ s : List Char,
      (')' :: s).head?.all (!Token.continuesWord ·) = true := fun _ => rfl
  rw [Token.ofText?, toList_maxKeySql, hparts]
  rw [hparts] at h
  have hpath := Token.Reads.path h (by simp) Token.Reads.nil
  have hfrom := Token.Reads.space (.word (w := "FROM") (by decide) (hspace _)
    (.space hpath))
  have hcolumn := Token.Reads.word (w := "sequence") (by decide) (hclose _)
    (.bracket (.inr rfl) hfrom)
  exact (Token.Reads.word (by decide) (hspace _) (.space
    (.word (by decide) (hopen _) (.bracket (.inl rfl) hcolumn)))).ofChars?

/-- The greatest key in the table of this path. -/
def maxKeyQuery (p : Path) : Query :=
  .select false [.value (.call ["max"] [.column ["sequence"]]) none]
    (.relation p none) none [] none none

set_option maxRecDepth 8000 in
theorem run_statement_maxKey (fuel : Nat) (schema name : String) :
    (statement (fuel + 20)).run
        ⟨.word "SELECT" :: .word "max" :: .symbol "(" :: .word "sequence"
          :: .symbol ")" :: .word "FROM"
          :: (Token.ofPath [schema, name] ++ []), 0⟩ =
      some (.query (maxKeyQuery [schema, name]), ⟨[], 0⟩) := by
  cbv

theorem read?_maxKeySql {table schema name : String}
    (hparts : tableParts table = [schema, name]) (h : "" ∉ tableParts table) :
    read? (maxKeySql table) =
      some [(.query (maxKeyQuery [schema, name]), 0)] := by
  have htokens := ofText?_maxKeySql h
  rw [hparts] at htokens
  have hscript := run_statements_of_last (by decide)
    (run_statement_maxKey 60 schema name)
  rw [read?, htokens]
  simp only [Option.bind_eq_bind, Option.bind_some]
  rw [show 8 * _ + 8 = 78 + 2 from rfl, hscript]
  rfl

end Grammar

end SchemaLedger.Engine
