import SchemaLedger.Engine.Database
import SchemaLedger.Proofs.Engine.Tokens
import SchemaLedger.Proofs.Sql.Naming
import SchemaLedger.Version.Store
/-!
# The templates of generated SQL

Every statement that a driver writes is a fixed sequence of tokens with names or
texts in some places. `tokens?` takes a text apart by the rules of SQL: a token
between marks ends at the first mark that is not doubled, and may be empty, which
the engine does not allow for names. Whatever characters are in a name, it fills its
places and nothing else, and it can be read back from there: `tokens_of_generated`.
-/

namespace SchemaLedger.Sql

open Engine

/-- The token at the front by the rules of SQL, and what follows it. The rules are
those of the engine, but there may be nothing between the marks of a name. -/
def nextToken? : List Char → Option (Option Token × List Char)
  | '"' :: rest =>
    (readQuoted '"' rest).map fun r => (some (.name (String.ofList r.1)), r.2)
  | s => Token.next? s

/-- The tokens that are met in so many steps, and what follows them. -/
def frontTokens : Nat → List Char → Option (List Token × List Char)
  | 0, s => some ([], s)
  | steps + 1, s => do
    let (token, rest) ← nextToken? s
    let (tokens, rest) ← frontTokens steps rest
    return (token.toList ++ tokens, rest)

/-- The tokens of a text, unless something in it is no token. Every step takes
some characters, so there are no more steps than characters. -/
def tokens? (s : String) : Option (List Token) :=
  match frontTokens s.toList.length s.toList with
  | some (tokens, []) => some tokens
  | _ => none

section Spelling

variable {s t : List Char} {ts us : List Token}

theorem frontTokens_succ (steps : Nat) (s : List Char) :
    frontTokens (steps + 1) s = do
      let (token, rest) ← nextToken? s
      let (tokens, rest) ← frontTokens steps rest
      return (token.toList ++ tokens, rest) := rfl

theorem frontTokens_add (steps more : Nat) (s : List Char) :
    frontTokens (steps + more) s = do
      let (tokens, rest) ← frontTokens steps s
      let (others, rest) ← frontTokens more rest
      return (tokens ++ others, rest) := by
  induction steps generalizing s with
  | zero =>
      rw [Nat.zero_add, frontTokens]
      simp only [Option.bind_eq_bind, Option.bind_some]
      cases frontTokens more s <;> rfl
  | succ steps ih =>
      rw [Nat.succ_add, frontTokens_succ, frontTokens_succ]
      cases nextToken? s with
      | none => rfl
      | some next =>
          simp only [Option.bind_eq_bind, Option.bind_some, ih]
          cases frontTokens steps next.2 with
          | none => rfl
          | some front =>
              simp only [Option.bind_some, Option.pure_def]
              cases frontTokens more front.2 with
              | none => rfl
              | some others => simp

/-- The text is taken apart into these tokens, given as many steps as it has
characters, or more. -/
def Spells (s : List Char) (ts : List Token) : Prop :=
  ∀ steps, s.length ≤ steps → frontTokens steps s = some (ts, [])

theorem Spells.tokens? {s : String} (h : Spells s.toList ts) :
    tokens? s = some ts := by
  rw [Sql.tokens?, h _ (Nat.le_refl _)]

theorem Spells.nil : Spells [] [] := by
  intro steps hsteps
  clear hsteps
  induction steps with
  | zero => rfl
  | succ steps ih =>
      have hnext : nextToken? [] = some (none, []) := rfl
      rw [frontTokens_succ, hnext]
      simp only [Option.bind_eq_bind, Option.bind_some, ih]
      rfl

theorem Spells.front (steps : Nat)
    (hfront : frontTokens steps (s ++ t) = some (ts, t)) (hsteps : steps ≤ s.length)
    (h : Spells t us) : Spells (s ++ t) (ts ++ us) := by
  intro more hmore
  rw [List.length_append] at hmore
  obtain ⟨others, rfl⟩ := Nat.exists_eq_add_of_le (Nat.le_trans hsteps
    (Nat.le_trans (Nat.le_add_right _ _) hmore))
  rw [frontTokens_add, hfront]
  simp only [Option.bind_eq_bind, Option.bind_some, h others (by omega)]
  rfl

theorem Spells.cons {token : Token}
    (hnext : nextToken? (s ++ t) = some (some token, t)) (hs : s ≠ [])
    (h : Spells t us) : Spells (s ++ t) (token :: us) := by
  have hfront : frontTokens 1 (s ++ t) = some ([token], t) := by
    rw [frontTokens_succ, hnext]
    rfl
  exact .front 1 hfront (List.length_pos_iff.2 hs) h

theorem Spells.name (p : String) (ht : t.head? ≠ some '"') (h : Spells t us) :
    Spells ((quoteIdentifier p).toList ++ t) (.name p :: us) := by
  refine .cons ?_ (by simp [toList_quoteIdentifier]) h
  rw [toList_quoteIdentifier, List.append_assoc, List.singleton_append,
    List.cons_append]
  change (readQuoted '"' _).map _ = _
  rw [readQuoted_double p.toList ht, Option.map_some, String.ofList_toList]

theorem Spells.text (value : String) (ht : t.head? ≠ some '\'') (h : Spells t us) :
    Spells (('\'' :: (escapeLiteral value).toList ++ ['\'']) ++ t)
      (.text value :: us) := by
  refine .cons ?_ (by simp) h
  rw [escapeLiteral, String.toList_ofList, List.append_assoc, List.cons_append,
    List.singleton_append]
  change (readQuoted '\'' _).map _ = _
  rw [readQuoted_double value.toList ht, Option.map_some, String.ofList_toList]

theorem Spells.path (ps : List String) (ht : t.head? ≠ some '"')
    (h : Spells t us) :
    Spells (Token.quotedPath ps ++ t) (Token.ofPath ps ++ us) := by
  cases ps with
  | nil => exact h
  | cons p ps =>
      induction ps generalizing p with
      | nil => exact .name p ht h
      | cons q ps ih =>
          rw [Token.quotedPath_cons_cons, List.append_assoc, List.cons_append]
          have hpoint : nextToken? (['.'] ++ (Token.quotedPath (q :: ps) ++ t)) =
              some (some (.symbol "."), Token.quotedPath (q :: ps) ++ t) :=
            Token.next?_point (Token.head?_quotedPath q ps t)
          exact .name p (by simp) (.cons hpoint (by simp) (ih q))

end Spelling

/-- The identifiers of the name of a table: its parts between dots, or the schema
`main` and the name itself if there are no dots. -/
def nameParts (name : String) : List String :=
  if '.' ∈ name.toList then (name.toList.splitOn '.').map String.ofList
  else ["main", name]

section Parts

theorem tableParts_eq (name : String) : tableParts name = nameParts name := by
  rw [tableParts, splitName, nameParts]
  split
  · next before after h =>
      obtain ⟨hname, hafter⟩ := eq_of_cutLast?_eq_some h
      rw [hname, if_pos (by simp), ← cut_eq_splitOn, cut_append_cons,
        cut_of_not_mem hafter, String.toList_ofList, List.map_append]
      rfl
  · next h =>
      have hmain : cut '.' defaultSchema.toList = ["main".toList] := by decide
      rw [if_neg (not_mem_of_cutLast?_eq_none h)]
      simp only [hmain]
      rfl

theorem nameParts_of_dot {name : String} (h : '.' ∈ name.toList) :
    nameParts name = (name.toList.splitOn '.').map String.ofList := if_pos h

theorem nameParts_of_no_dot {name : String} (h : '.' ∉ name.toList) :
    nameParts name = ["main", name] := if_neg h

theorem nameParts_main {name : String} (h : '.' ∉ name.toList) :
    nameParts ("main." ++ name) = ["main", name] := by
  have hchars : ("main." ++ name).toList = "main".toList ++ '.' :: name.toList := by
    rw [String.toList_append]
    rfl
  rw [nameParts_of_dot (by simp [hchars]), hchars, ← cut_eq_splitOn,
    cut_append_cons, cut_of_not_mem h, cut_of_not_mem (by decide)]
  simp

theorem toList_of_nameParts {name : String} {parts : List String}
    (h : '.' ∈ name.toList) (hparts : nameParts name = parts) :
    name.toList = ['.'].intercalate (parts.map String.toList) := by
  have hid : String.toList ∘ String.ofList = id :=
    funext fun _ => String.toList_ofList
  rw [← hparts, nameParts_of_dot h, List.map_map, hid, List.map_id,
    List.intercalate_splitOn]

theorem eq_main_of_nameParts_eq {a b : String} (ha : '.' ∉ a.toList)
    (hb : '.' ∈ b.toList) (h : nameParts b = nameParts a) : b = "main." ++ a := by
  have hchars := toList_of_nameParts hb (h.trans (nameParts_of_no_dot ha))
  refine String.toList_inj.1 (hchars.trans ?_)
  simp [String.toList_append]

/-- Names have the same parts if they are the same, or if one of them says that its
schema is `main` and the other leaves that out. -/
theorem nameParts_eq_iff (a b : String) :
    nameParts a = nameParts b ↔ a = b ∨ '.' ∉ a.toList ∧ b = "main." ++ a ∨
      '.' ∉ b.toList ∧ a = "main." ++ b := by
  constructor
  · intro h
    by_cases ha : '.' ∈ a.toList
    · by_cases hb : '.' ∈ b.toList
      · refine Or.inl (String.toList_inj.1 ?_)
        rw [toList_of_nameParts ha h, toList_of_nameParts hb rfl]
      · exact Or.inr (Or.inr ⟨hb, eq_main_of_nameParts_eq hb ha h⟩)
    · by_cases hb : '.' ∈ b.toList
      · exact Or.inr (Or.inl ⟨ha, eq_main_of_nameParts_eq ha hb h.symm⟩)
      · rw [nameParts_of_no_dot ha, nameParts_of_no_dot hb] at h
        exact Or.inl (by simpa using h)
  · rintro (rfl | ⟨ha, rfl⟩ | ⟨hb, rfl⟩)
    · rfl
    · rw [nameParts_main ha, nameParts_of_no_dot ha]
    · rw [nameParts_main hb, nameParts_of_no_dot hb]

theorem qualifiedTable_eq_iff (a b : String) :
    qualifiedTable a = qualifiedTable b ↔ nameParts a = nameParts b := by
  rw [← tableParts_eq, ← tableParts_eq]
  refine ⟨fun h => Token.quotedPath_injective (congrArg String.toList h), fun h => ?_⟩
  rw [qualifiedTable, h, qualifiedTable]

end Parts

namespace Template

open Token

/-! A template has a place for the tokens of a name, or places for texts. -/

def creation (path : List Token) : List Token :=
  [word "CREATE", word "TABLE"] ++ path ++
    [symbol "(", word "sequence", word "UBIGINT", word "PRIMARY",
      word "KEY", symbol ",", word "version", word "BIGINT", word "NOT",
      word "NULL", symbol ",", word "dirty", word "UTINYINT", word "NOT",
      word "NULL", symbol ")"]

def latest (path : List Token) : List Token :=
  [word "SELECT", word "sequence", symbol ",", word "version", symbol ",",
      word "dirty", word "FROM"] ++ path ++
    [word "ORDER", word "BY", word "sequence", word "DESC", word "LIMIT",
      number "1"]

def insertion (path : List Token) : List Token :=
  [word "INSERT", word "INTO"] ++ path ++
    [symbol "(", word "sequence", symbol ",", word "version", symbol ",",
      word "dirty", symbol ")", word "VALUES", symbol "(", symbol "?",
      symbol ",", symbol "?", symbol ",", symbol "?", symbol ")"]

def maxKey (path : List Token) : List Token :=
  [word "SELECT", word "max", symbol "(", word "sequence", symbol ")",
    word "FROM"] ++ path

def lookup (schema table : String) : List Token :=
  [word "SELECT", word "COUNT", symbol "(", symbol "*", symbol ")",
    word "FROM", word "information_schema", symbol ".", word "tables",
    word "WHERE", word "table_catalog", symbol "=", word "current_database",
    symbol "(", symbol ")", word "AND", word "table_schema", symbol "=",
    text schema, word "AND", word "table_name", symbol "=", text table]

/-- The words for a kind, one by one. -/
def kindWords : ObjectKind → List Token
  | .view => [word "VIEW"]
  | .table => [word "TABLE"]
  | .scalarMacro => [word "MACRO"]
  | .tableMacro => [word "MACRO", word "TABLE"]
  | .sequence => [word "SEQUENCE"]
  | .type => [word "TYPE"]
  | .schema => [word "SCHEMA"]

def dropping (kind : ObjectKind) (path : List Token) : List Token :=
  word "DROP" :: kindWords kind ++ path

end Template

section Texts

variable {before after : List Token}

theorem spells_of_tokens? {s : String} (h : tokens? s = some after) :
    Spells s.toList after := by
  have hfront : frontTokens s.toList.length s.toList = some (after, []) := by
    rw [tokens?] at h
    split at h
    · next hfront => rw [hfront, Option.some.inj h]
    · cases h
  have hspells := Spells.front _ (by rwa [List.append_nil]) (Nat.le_refl _)
    Spells.nil
  rwa [List.append_nil, List.append_nil] at hspells

theorem tokens?_around (table : String) {lead rest : String} (steps : Nat)
    (hlead : ∀ t, frontTokens steps (lead.toList ++ t) = some (before, t))
    (hsteps : steps ≤ lead.toList.length) (hrest : tokens? rest = some after)
    (hmark : rest.toList.head? ≠ some '"') :
    tokens? (lead ++ qualifiedTable table ++ rest) =
      some (before ++ Token.ofPath (nameParts table) ++ after) := by
  have htext : (lead ++ qualifiedTable table ++ rest).toList =
      lead.toList ++ (Token.quotedPath (nameParts table) ++ rest.toList) := by
    rw [String.toList_append, String.toList_append, List.append_assoc,
      qualifiedTable, tableParts_eq, Token.quotedPath]
  refine Spells.tokens? ?_
  rw [htext, List.append_assoc]
  exact .front steps (hlead _) hsteps (.path _ hmark (spells_of_tokens? hrest))

theorem tokens?_qualifiedTable (table : String) :
    tokens? (qualifiedTable table) = some (Token.ofPath (nameParts table)) := by
  have hpath := Spells.path (nameParts table) (by simp) Spells.nil
  rw [List.append_nil, List.append_nil] at hpath
  refine Spells.tokens? ?_
  rwa [qualifiedTable, tableParts_eq]

theorem tokens?_createSql (table : String) :
    tokens? (VersionStore.createSql table) =
      some (Template.creation (Token.ofPath (nameParts table))) :=
  (congrArg tokens? String.append_assoc).trans
    (tokens?_around table 4 (fun _ => rfl) (by decide) (by decide +kernel)
      (by decide))

theorem tokens?_latestSql (table : String) :
    tokens? (VersionStore.latestSql table) =
      some (Template.latest (Token.ofPath (nameParts table))) :=
  tokens?_around table 12 (fun _ => rfl) (by decide) (by decide +kernel)
    (by decide)

theorem tokens?_insertSql (table : String) :
    tokens? (VersionStore.insertSql table) =
      some (Template.insertion (Token.ofPath (nameParts table))) :=
  tokens?_around table 4 (fun _ => rfl) (by decide) (by decide +kernel)
    (by decide)

theorem tokens?_maxKeySql (table : String) :
    tokens? (VersionStore.maxKeySql table) =
      some (Template.maxKey (Token.ofPath (nameParts table))) := by
  have htext : VersionStore.maxKeySql table =
      "SELECT max(sequence) FROM " ++ qualifiedTable table ++ "" :=
    String.append_empty.symm
  rw [htext, Template.maxKey, ← List.append_nil (_ ++ _)]
  exact tokens?_around table 9 (fun _ => rfl) (by decide) rfl (by decide)

/-- The identifiers of an object: its schema and its name, or its name alone if it
is a schema. -/
def objectParts (o : CatalogObject) : List String :=
  if o.kind = .schema then [o.name] else [o.schema, o.name]

theorem toList_quotedName (o : CatalogObject) :
    o.quotedName.toList = Token.quotedPath (objectParts o) := by
  by_cases h : o.kind = .schema
  · rw [CatalogObject.quotedName_of_schema h, objectParts, if_pos h,
      Token.quotedPath_singleton]
  · rw [CatalogObject.toList_quotedName_of_ne_schema h, objectParts, if_neg h,
      Token.quotedPath_cons_cons, Token.quotedPath_singleton]

theorem frontTokens_drop (kind : ObjectKind) :
    ∃ steps, steps ≤ ("DROP " ++ kind.keyword ++ " ").toList.length ∧
      ∀ t, frontTokens steps (("DROP " ++ kind.keyword ++ " ").toList ++ t) =
        some (.word "DROP" :: Template.kindWords kind, t) := by
  cases kind with
  | tableMacro => exact ⟨6, by decide, fun _ => rfl⟩
  | _ => exact ⟨4, by decide, fun _ => rfl⟩

theorem tokens?_dropSql (o : CatalogObject) :
    tokens? o.dropSql =
      some (Template.dropping o.kind (Token.ofPath (objectParts o))) := by
  obtain ⟨steps, hsteps, hfront⟩ := frontTokens_drop o.kind
  have hpath := Spells.path (objectParts o) (by simp) Spells.nil
  have hspells := Spells.front steps (hfront _) hsteps hpath
  refine Spells.tokens? ?_
  rw [CatalogObject.toList_dropSql, toList_quotedName]
  rwa [List.append_nil, List.append_nil] at hspells

example : tokens? (CatalogObject.dropSql ⟨"", "a\"; --", .table⟩) =
    some [.word "DROP", .word "TABLE", .name "", .symbol ".", .name "a\"; --"] := by
  decide +kernel

theorem toList_lookupSql (name : String) :
    (lookupSql name).toList =
      ("SELECT COUNT(*) FROM information_schema.tables WHERE "
          ++ "table_catalog = ").toList ++
        ("current_database() AND table_schema = ".toList ++
          (('\'' :: (escapeLiteral (splitName name).schema).toList ++ ['\'']) ++
            (" AND table_name = ".toList ++
              (('\'' :: (escapeLiteral (splitName name).table).toList ++ ['\'']) ++
                [])))) := by
  have htext : ∀ {lead more schema middle table rest : String}
      {l m n : List Char}, lead.toList = l → more.toList = m ++ ['\''] →
      middle.toList = '\'' :: (n ++ ['\'']) → rest.toList = ['\''] →
      (lead ++ more ++ schema ++ middle ++ table ++ rest).toList =
        l ++ (m ++ (('\'' :: schema.toList ++ ['\'']) ++
          (n ++ (('\'' :: table.toList ++ ['\'']) ++ [])))) := by
    intro lead more schema middle table rest l m n hlead hmore hmiddle hrest
    simp only [String.toList_append, hlead, hmore, hmiddle, hrest,
      List.append_assoc, List.cons_append, List.nil_append, List.append_nil]
  exact htext (by decide +kernel) (by decide) (by decide) (by decide)

theorem tokens?_lookupSql (name : String) :
    tokens? (lookupSql name) =
      some (Template.lookup (splitName name).schema (splitName name).table) := by
  have hlead : ∀ t, frontTokens 19 (("SELECT COUNT(*) FROM information_schema.tables WHERE "
      ++ "table_catalog = ").toList ++ t) =
        some ((Template.lookup "" "").take 12, t) := fun _ => rfl
  have hmore : ∀ t, frontTokens 10
      ("current_database() AND table_schema = ".toList ++ t) =
        some (((Template.lookup "" "").drop 12).take 6, t) := fun _ => rfl
  have hmiddle : ∀ t, frontTokens 7 (" AND table_name = ".toList ++ t) =
      some ([.word "AND", .word "table_name", .symbol "="], t) := fun _ => rfl
  refine Spells.tokens? ?_
  rw [toList_lookupSql]
  refine .front 19 (hlead _) (by decide) ?_
  refine .front 10 (hmore _) (by decide) (.text _ (by simp) ?_)
  exact .front 7 (hmiddle _) (by decide) (.text _ (by simp) .nil)

end Texts

/-- Generated statements are their templates, with the parts of a name, the schema
and the name of an object, or the two texts of a lookup in their places, whatever
characters are in them. So two names are written alike only if one of them leaves
out the schema `main`, and two objects are dropped by the same statement only if
they are of the same kind and have the same name, in the same schema unless they
are schemas. -/
theorem tokens_of_generated :
    (∀ table, let path := Token.ofPath (nameParts table)
      tokens? (qualifiedTable table) = some path ∧
      tokens? (VersionStore.createSql table) = some (Template.creation path) ∧
      tokens? (VersionStore.latestSql table) = some (Template.latest path) ∧
      tokens? (VersionStore.insertSql table) = some (Template.insertion path) ∧
      tokens? (VersionStore.maxKeySql table) = some (Template.maxKey path) ∧
      tokens? (lookupSql table) =
        some (Template.lookup (splitName table).schema (splitName table).table)) ∧
    (∀ o : CatalogObject, tokens? o.dropSql =
      some (Template.dropping o.kind (Token.ofPath (objectParts o)))) ∧
    (∀ a b, qualifiedTable a = qualifiedTable b ↔
      a = b ∨ '.' ∉ a.toList ∧ b = "main." ++ a ∨
        '.' ∉ b.toList ∧ a = "main." ++ b) ∧
    ∀ a b : CatalogObject, a.dropSql = b.dropSql ↔
      a.kind = b.kind ∧ a.name = b.name ∧
        (a.kind ≠ .schema → a.schema = b.schema) := by
  refine ⟨fun table => ⟨tokens?_qualifiedTable table, tokens?_createSql table,
    tokens?_latestSql table, tokens?_insertSql table, tokens?_maxKeySql table,
    tokens?_lookupSql table⟩, tokens?_dropSql, fun a b => ?_, fun a b =>
      ⟨CatalogObject.eq_of_dropSql_eq, ?_⟩⟩
  · rw [qualifiedTable_eq_iff, nameParts_eq_iff]
  · rintro ⟨hkind, hname, hschema⟩
    have hparts : objectParts a = objectParts b := by
      rw [objectParts, objectParts, hname, hkind]
      split
      · rfl
      · next hne => rw [hschema (hkind ▸ hne)]
    refine String.toList_inj.1 ?_
    rw [CatalogObject.toList_dropSql, CatalogObject.toList_dropSql,
      toList_quotedName, toList_quotedName, hparts, hkind]

end SchemaLedger.Sql
