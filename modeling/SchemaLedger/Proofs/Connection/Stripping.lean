import SchemaLedger.Proofs.Connection.Folding
import SchemaLedger.Proofs.Text.Trimming
/-!
# Connection strings without their options

What is left of a connection string once the driver has taken its options out is a
connection string again, with the same pairs for the database, and nothing in it is
meant for the driver. Reading it once more therefore finds the same URL and leaves
the configuration as it is: `parse_strips`.
-/

namespace SchemaLedger

namespace UrlPath

/-- The path is the other one, perhaps without spaces at the end of an opaque
text. -/
def Shortens (path longer : UrlPath) : Prop :=
  path = longer ∨ ∃ text n, path = .opaqueText text ∧
    longer = .opaqueText (text ++ String.ofList (List.replicate n ' '))

end UrlPath

namespace ConnectionString

open Form (Pair)

theorem fold_of_forall_isForeign {pairs : List Pair} (h : ∀ p ∈ pairs, IsForeign p)
    (c : Config) : fold c pairs = ⟨.ok (c, pairs), []⟩ := by
  induction pairs with
  | nil => rfl
  | cons p pairs ih =>
      obtain ⟨hp, hrest⟩ := List.forall_mem_cons.1 h
      rw [fold_cons_of_isForeign c pairs hp, ih hrest]
      rfl

section WithoutTrailingSpaces

variable (u : Url)

theorem query?_withoutTrailingSpaces : (withoutTrailingSpaces u).query? = u.query? := by
  rw [withoutTrailingSpaces]
  split <;> rfl

theorem exists_withoutTrailingSpaces :
    ∃ path, withoutTrailingSpaces u = { u with path := path } ∧
      path.Shortens u.path := by
  rw [withoutTrailingSpaces]
  split
  · next text hpath _ _ =>
      obtain ⟨spaces, htext, hspaces⟩ :=
        Text.exists_trimEnd_append (· == ' ') text.toList
      refine ⟨_, rfl, Or.inr ⟨_, spaces.length, rfl, ?_⟩⟩
      rw [← List.eq_replicate_of_mem fun c hc => beq_iff_eq.1 (hspaces c hc),
        ← String.ofList_append, ← htext, String.ofList_toList, hpath]
  · exact ⟨u.path, rfl, Or.inl rfl⟩

theorem withoutTrailingSpaces_idem :
    withoutTrailingSpaces (withoutTrailingSpaces u) = withoutTrailingSpaces u := by
  rcases u with ⟨scheme, username, password, host?, port?, path, query?, fragment?⟩
  cases path with
  | segments list => rfl
  | opaqueText text =>
      cases query? with
      | some query => rfl
      | none =>
          cases fragment? with
          | some fragment => rfl
          | none =>
              simp only [withoutTrailingSpaces, String.toList_ofList,
                Text.trimEnd_trimEnd]

end WithoutTrailingSpaces

section WithPairs

variable (u : Url) {list : List Pair}

theorem withPairs_nil :
    withPairs u [] = withoutTrailingSpaces { u with query? := none } := rfl

theorem withPairs_of_ne_nil (h : list ≠ []) :
    withPairs u list = { u with query? := some (Form.render list) } :=
  if_neg (by simpa using h)

theorem exists_withPairs (list : List Pair) :
    ∃ path query?, withPairs u list = { u with path := path, query? := query? } ∧
      path.Shortens u.path := by
  by_cases h : list = []
  · subst h
    obtain ⟨path, hpath, hshortens⟩ :=
      exists_withoutTrailingSpaces { u with query? := none }
    exact ⟨path, none, by rw [withPairs_nil, hpath], hshortens⟩
  · exact ⟨u.path, some _, withPairs_of_ne_nil u h, Or.inl rfl⟩

/-- A URL that has been given its pairs stays as it is when it is given them once
more. -/
theorem withPairs_withPairs (list : List Pair) :
    withPairs (withPairs u list) list = withPairs u list := by
  by_cases h : list = []
  · subst h
    have hquery : (withPairs u []).query? = none :=
      query?_withoutTrailingSpaces { u with query? := none }
    rw [withPairs_nil (withPairs u []), ← hquery]
    exact withoutTrailingSpaces_idem { u with query? := none }
  · rw [withPairs_of_ne_nil u h, withPairs_of_ne_nil _ h]

end WithPairs

theorem exists_of_parse_ok {base : Config} {text : String} {c : ConnectionString}
    (h : (parse base text).1 = .ok c) :
    ∃ u, Url.parse text = .ok u ∧
      c.url = withPairs u ((pairs u).filter (IsForeign ·)) := by
  cases hu : Url.parse text with
  | error fault =>
      rw [parse, hu] at h
      cases h
  | ok u =>
      refine ⟨u, rfl, ?_⟩
      rw [parse_of_url hu, ofUrl] at h
      cases hfold : (fold base (pairs u)).result with
      | error fault =>
          simp only [hfold] at h
          cases h
      | ok r =>
          simp only [hfold] at h
          obtain rfl := Except.ok.inj h
          exact congrArg (withPairs u) (eq_filter_of_fold hfold)

/-- A connection string whose options have been taken out is read again to the same
URL and the same configuration, and nothing is logged. -/
theorem ofUrl_withPairs {list : List Pair} (h : ∀ p ∈ list, IsForeign p) (c : Config)
    (u : Url) :
    ofUrl c (withPairs u list) = (.ok ⟨withPairs u list, c⟩, []) := by
  simp only [ofUrl, pairs_withPairs, fold_of_forall_isForeign h, Except.map,
    withPairs_withPairs]

/-- The URL of a connection string has the pairs that are not meant for the driver,
and no query if there are none; its other parts are those of the URL that was read,
apart from spaces at the end of an opaque path. If its written form is read to that
URL, it is read as a connection string to the same URL and the same configuration. -/
theorem parse_strips {base : Config} {text : String} {c : ConnectionString}
    (h : (parse base text).1 = .ok c) :
    ∃ u, Url.parse text = .ok u ∧
      let left := (pairs u).filter (IsForeign ·)
      (left = [] → c.url.query? = none) ∧
      (left ≠ [] → ∃ query, c.url.query? = some query ∧ Form.read query = left) ∧
      c.url = { u with path := c.url.path, query? := c.url.query? } ∧
      c.url.path.Shortens u.path ∧
      (Url.parse c.url.render = .ok c.url →
        parse c.config c.url.render = (.ok c, [])) := by
  obtain ⟨u, hu, hurl⟩ := exists_of_parse_ok h
  refine ⟨u, hu, ?_⟩
  intro left
  obtain ⟨path, query?, hparts, hshortens⟩ := exists_withPairs u left
  have hleft : ∀ p ∈ left, IsForeign p := fun p hp =>
    of_decide_eq_true (List.mem_filter.1 hp).2
  refine ⟨fun hnil => ?_, fun hne => ?_, ?_, ?_, fun hread => ?_⟩
  · rw [hurl]
    change (withPairs u left).query? = none
    rw [hnil, withPairs_nil, query?_withoutTrailingSpaces]
  · refine ⟨Form.render left, ?_, Form.read_render left⟩
    rw [hurl]
    change (withPairs u left).query? = _
    rw [withPairs_of_ne_nil u hne]
  · rw [hurl, hparts]
  · rw [hurl]
    change (withPairs u left).path.Shortens u.path
    rw [hparts]
    exact hshortens
  · rw [parse_of_url hread, hurl]
    rw [ofUrl_withPairs hleft c.config u, ← hurl]

/-- Separators, escapes and letters beyond ASCII in the pairs for the database, and an
opaque path with spaces in front of a query that goes away. -/
theorem parse_strips_of_escaped_pairs :
    let c : ConnectionString :=
      { url :=
          { scheme := "duckdb", host? := some (.name "h"), port? := some 1
            path := .segments [['p']]
            query? := some "a%26b=%C3%BC%2B1+x&=&%3D%25=" }
        config := { multiStatement := true } }
    let d : ConnectionString :=
      { url := { scheme := "duckdb", path := .opaqueText "a b" }
        config := { migrationsTable := "" } }
    ((parse {} ("duckdb://h:1/p?a%26b=%C3%BC%2B1+x&x-multi-statement=true&x-y&=" ++
        "&%3D%25")).1 = .ok c ∧
      Form.read "a%26b=%C3%BC%2B1+x&=&%3D%25=" =
        [("a&b", "ü+1 x"), ("", ""), ("=%", "")] ∧
      parse c.config c.url.render = (.ok c, [])) ∧
    (parse {} "duckdb:a b  ?migrations-table").1 = .ok d ∧
      parse d.config d.url.render = (.ok d, []) := by
  intro c d
  have hc : (parse {} ("duckdb://h:1/p?a%26b=%C3%BC%2B1+x&x-multi-statement=true" ++
      "&x-y&=&%3D%25")).1 = .ok c := by decide +kernel
  have hd : (parse {} "duckdb:a b  ?migrations-table").1 = .ok d := by decide +kernel
  constructor
  · obtain ⟨u, hu, -, hquery, -, -, hagain⟩ := parse_strips hc
    obtain rfl : u = { c.url with
        query? := some ("a%26b=%C3%BC%2B1+x&x-multi-statement=true&x-y&=" ++
          "&%3D%25") } :=
      Except.ok.inj (hu.symm.trans (by decide +kernel))
    obtain ⟨query, hsome, hread⟩ := hquery (by decide +kernel)
    cases hsome
    exact ⟨hc, hread.trans (by decide +kernel), hagain (by decide +kernel)⟩
  · obtain ⟨u, -, -, -, -, -, hagain⟩ := parse_strips hd
    exact ⟨hd, hagain (by decide +kernel)⟩

end ConnectionString

end SchemaLedger
