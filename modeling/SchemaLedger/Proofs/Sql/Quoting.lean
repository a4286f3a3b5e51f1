import SchemaLedger.Database.Object
/-!
# Quoted names

A quoted token is read back from the front of any text in which no further mark
follows it, so quoted names are told apart wherever they stand, and the statement
that drops an object says which object that is.
-/

namespace SchemaLedger

namespace Sql

theorem readQuoted_cons_of_ne {mark c : Char} (h : c ≠ mark) {s : List Char}
    (hs : s ≠ []) :
    readQuoted mark (c :: s) =
      (readQuoted mark s).map fun r => (c :: r.1, r.2) := by
  cases s with
  | nil => exact absurd rfl hs
  | cons d rest => rw [readQuoted, if_neg h]

theorem readQuoted_mark_mark (mark : Char) (s : List Char) :
    readQuoted mark (mark :: mark :: s) =
      (readQuoted mark s).map fun r => (mark :: r.1, r.2) := by
  rw [readQuoted, if_pos rfl, if_pos rfl]

theorem readQuoted_mark {mark : Char} {rest : List Char}
    (h : rest.head? ≠ some mark) :
    readQuoted mark (mark :: rest) = some ([], rest) := by
  cases rest with
  | nil => rw [readQuoted, if_pos rfl]
  | cons d rest =>
      have hd : d ≠ mark := by simpa using h
      rw [readQuoted, if_pos rfl, if_neg hd]

/-- A token says what it was made of, whatever follows it. -/
theorem readQuoted_double {mark : Char} (s : List Char) {rest : List Char}
    (h : rest.head? ≠ some mark) :
    readQuoted mark (double mark s ++ mark :: rest) = some (s, rest) := by
  induction s with
  | nil => exact readQuoted_mark h
  | cons c s ih =>
      rw [double_cons]
      by_cases hc : c = mark
      · subst hc
        rw [if_pos rfl, List.append_assoc]
        change readQuoted c (c :: c :: (double c s ++ c :: rest)) = _
        rw [readQuoted_mark_mark, ih]
        rfl
      · rw [if_neg hc, List.append_assoc, List.singleton_append,
          readQuoted_cons_of_ne hc (by simp), ih]
        rfl

theorem toList_quoteIdentifier (name : String) :
    (quoteIdentifier name).toList = '"' :: double '"' name.toList ++ ['"'] := by
  simp [quoteIdentifier, quoted]

/-- Two names are the same if they are the same once they are quoted, and then so
is what follows them. -/
theorem eq_of_quoteIdentifier_append_eq {a b : String} {s t : List Char}
    (hs : s.head? ≠ some '"') (ht : t.head? ≠ some '"')
    (h : (quoteIdentifier a).toList ++ s = (quoteIdentifier b).toList ++ t) :
    a = b ∧ s = t := by
  have hrest : double '"' a.toList ++ '"' :: s = double '"' b.toList ++ '"' :: t := by
    simpa [toList_quoteIdentifier] using h
  have hread : some (a.toList, s) = some (b.toList, t) := by
    rw [← readQuoted_double a.toList hs, hrest, readQuoted_double b.toList ht]
  have hpair := Prod.mk.inj (Option.some.inj hread)
  exact ⟨String.toList_inj.1 hpair.1, hpair.2⟩

theorem quoteIdentifier_injective {a b : String}
    (h : quoteIdentifier a = quoteIdentifier b) : a = b :=
  (eq_of_quoteIdentifier_append_eq (s := []) (t := []) (by simp) (by simp)
    (by rw [h])).1

end Sql

theorem ObjectKind.keyword_injective {a b : ObjectKind}
    (h : a.keyword = b.keyword) : a = b := by
  cases a <;> cases b <;> first | rfl | simp [keyword] at h

namespace CatalogObject

theorem not_mark_of_mem_drop_keyword (k : ObjectKind) :
    ∀ c ∈ ("DROP " ++ k.keyword ++ " ").toList, decide (c ≠ '"') = true := by
  have hall : ("DROP " ++ k.keyword ++ " ").toList.all (· ≠ '"') = true := by
    cases k <;> decide
  exact List.all_eq_true.1 hall

theorem quotedName_of_schema {o : CatalogObject} (h : o.kind = .schema) :
    o.quotedName = Sql.quoteIdentifier o.name := by
  rw [quotedName]
  split
  · rfl
  · contradiction

theorem toList_quotedName_of_ne_schema {o : CatalogObject}
    (h : o.kind ≠ .schema) :
    o.quotedName.toList = (Sql.quoteIdentifier o.schema).toList ++
      '.' :: (Sql.quoteIdentifier o.name).toList := by
  rw [quotedName]
  split
  · contradiction
  · simp

theorem takeWhile_quotedName (o : CatalogObject) :
    o.quotedName.toList.takeWhile (· ≠ '"') = [] := by
  by_cases h : o.kind = .schema
  · rw [quotedName_of_schema h, Sql.toList_quoteIdentifier]
    simp
  · rw [toList_quotedName_of_ne_schema h, Sql.toList_quoteIdentifier]
    simp

theorem toList_dropSql (o : CatalogObject) :
    o.dropSql.toList =
      ("DROP " ++ o.kind.keyword ++ " ").toList ++ o.quotedName.toList := by
  rw [dropSql, String.toList_append]

theorem takeWhile_dropSql (o : CatalogObject) :
    o.dropSql.toList.takeWhile (· ≠ '"') =
      ("DROP " ++ o.kind.keyword ++ " ").toList := by
  rw [toList_dropSql,
    List.takeWhile_append_of_pos (not_mark_of_mem_drop_keyword o.kind),
    takeWhile_quotedName, List.append_nil]

/-- The statement that drops an object says its kind and its name, and its schema
unless it is one. -/
theorem eq_of_dropSql_eq {a b : CatalogObject} (h : a.dropSql = b.dropSql) :
    a.kind = b.kind ∧ a.name = b.name ∧
      (a.kind ≠ .schema → a.schema = b.schema) := by
  have hwords : ("DROP " ++ a.kind.keyword ++ " ").toList =
      ("DROP " ++ b.kind.keyword ++ " ").toList := by
    rw [← takeWhile_dropSql a, ← takeWhile_dropSql b, h]
  have hkind : a.kind = b.kind := by
    refine ObjectKind.keyword_injective (String.toList_inj.1 ?_)
    simpa using hwords
  have hname : a.quotedName.toList = b.quotedName.toList := by
    have hboth := congrArg String.toList h
    rw [toList_dropSql, toList_dropSql, hwords] at hboth
    exact List.append_cancel_left hboth
  refine ⟨hkind, ?_⟩
  by_cases hschema : a.kind = .schema
  · rw [quotedName_of_schema hschema, quotedName_of_schema (hkind ▸ hschema)]
      at hname
    exact ⟨Sql.quoteIdentifier_injective (String.toList_inj.1 hname),
      fun hne => absurd hschema hne⟩
  · rw [toList_quotedName_of_ne_schema hschema,
      toList_quotedName_of_ne_schema (hkind ▸ hschema)] at hname
    obtain ⟨hschemas, hrest⟩ :=
      Sql.eq_of_quoteIdentifier_append_eq (by simp) (by simp) hname
    have hnames : (Sql.quoteIdentifier a.name).toList =
        (Sql.quoteIdentifier b.name).toList := by
      simpa using hrest
    exact ⟨Sql.quoteIdentifier_injective (String.toList_inj.1 hnames),
      fun _ => hschemas⟩

end CatalogObject

end SchemaLedger
