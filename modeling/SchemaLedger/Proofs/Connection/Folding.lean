import SchemaLedger.Connection.Basic
import SchemaLedger.Proofs.Config.Options
import SchemaLedger.Proofs.Connection.Pairs
/-!
# Folding the pairs of a query

The pairs of a query are gone through in order. Options are applied to the
configuration, so of several that name a field the last one counts; the first one
that is refused ends it all. What is no option is left on the URL, unless it is
spelled as one. `parse_folds` says so of every list of pairs, by induction over it.
-/

namespace SchemaLedger.ConnectionString

open Form (Pair)

/-- The key of the pair names a field. -/
def IsOption (p : Pair) : Prop :=
  ∃ f : Config.Field, f.Names p.1

/-- The pair is an option with a value that its field does not accept. -/
def Refused (p : Pair) : Prop :=
  ∃ f : Config.Field, f.Names p.1 ∧ ¬ f.Accepts p.2

/-- The pair is not meant for the driver. -/
def IsForeign (p : Pair) : Prop :=
  ¬ IsOption p ∧ ¬ ['x', '-'] <+: p.1.toList

instance : DecidablePred IsOption := fun p =>
  decidable_of_iff (Config.Field.ofOption? p.1).isSome (by
    rw [Option.isSome_iff_exists]
    exact exists_congr fun _ => Config.Field.ofOption?_eq_some_iff)

instance : DecidablePred Refused := fun p =>
  match hfield : Config.Field.ofOption? p.1 with
  | some f => decidable_of_iff (¬ f.Accepts p.2) <| by
    rw [Config.Field.ofOption?_eq_some_iff] at hfield
    refine ⟨fun h => ⟨f, hfield, h⟩, ?_⟩
    rintro ⟨g, hg, h⟩
    rwa [hfield.unique hg]
  | none => isFalse <| by
    rintro ⟨f, hf, -⟩
    rw [Config.Field.ofOption?_eq_some_iff.2 hf] at hfield
    cases hfield

instance : DecidablePred IsForeign := fun p =>
  inferInstanceAs (Decidable (¬ IsOption p ∧ ¬ ['x', '-'] <+: p.1.toList))

/-- The value of the last pair that names the field. -/
def lastValue? (f : Config.Field) (pairs : List Pair) : Option String :=
  ((pairs.filter (f.Names ·.1)).getLast?).map Prod.snd

theorem lastValue?_cons_of_names {f : Config.Field} {p : Pair}
    (h : f.Names p.1) (pairs : List Pair) :
    lastValue? f (p :: pairs) = some ((lastValue? f pairs).getD p.2) := by
  rw [lastValue?, List.filter_cons_of_pos (by simpa using h), List.getLast?_cons,
    lastValue?]
  cases (pairs.filter (f.Names ·.1)).getLast? <;> rfl

theorem lastValue?_cons_of_not_names {f : Config.Field} {p : Pair}
    (h : ¬ f.Names p.1) (pairs : List Pair) :
    lastValue? f (p :: pairs) = lastValue? f pairs := by
  rw [lastValue?, List.filter_cons_of_neg (by simpa using h), lastValue?]

/-- Each field has the value of the last pair that names it, or the one that it had
if there is none. -/
def Gathers (base : Config) (pairs : List Pair) (c : Config) : Prop :=
  ∀ f, (∀ value, lastValue? f pairs = some value → c.Carries f value) ∧
    (lastValue? f pairs = none → c.Agrees base f)

theorem gathers_nil (base : Config) : Gathers base [] base :=
  fun f => ⟨nofun, fun _ => Config.Agrees.refl f⟩

theorem Gathers.cons_of_not_isOption {base c : Config} {pairs : List Pair}
    (h : Gathers base pairs c) {p : Pair} (hp : ¬ IsOption p) :
    Gathers base (p :: pairs) c := by
  intro f
  rw [lastValue?_cons_of_not_names fun hf => hp ⟨f, hf⟩]
  exact h f

theorem Gathers.cons_of_names {base first c : Config} {pairs : List Pair}
    (h : Gathers first pairs c) {f : Config.Field} {p : Pair} (hf : f.Names p.1)
    (hfirst : first.Carries f p.2) (hothers : ∀ g, g ≠ f → first.Agrees base g) :
    Gathers base (p :: pairs) c := by
  intro g
  by_cases hg : g = f
  · subst hg
    rw [lastValue?_cons_of_names hf]
    refine ⟨fun value hvalue => ?_, nofun⟩
    cases hlast : lastValue? g pairs with
    | none =>
        rw [hlast] at hvalue
        cases hvalue
        exact ((h g).2 hlast).carries hfirst
    | some later =>
        rw [hlast] at hvalue
        cases hvalue
        exact (h g).1 _ hlast
  · rw [lastValue?_cons_of_not_names fun hnames => hg (hnames.unique hf)]
    exact ⟨(h g).1, fun hnone => ((h g).2 hnone).trans (hothers g hg)⟩

section Fold

variable {p : Pair} (c : Config) (pairs : List Pair)

theorem fold_cons_of_isForeign (h : IsForeign p) :
    fold c (p :: pairs) =
      ⟨(fold c pairs).result.map fun r => (r.1, p :: r.2), (fold c pairs).log⟩ := by
  have hkey : isDriverKey p.1 = false :=
    Bool.eq_false_iff.2 fun hkey => h.2 (List.isPrefixOf_iff_prefix.1 hkey)
  rw [fold, Config.applyOption?_of_not_names fun f hf => h.1 ⟨f, hf⟩]
  simp only [hkey, Bool.false_eq_true, if_false]

theorem result_fold_cons_of_ignored (hoption : ¬ IsOption p)
    (hlead : ['x', '-'] <+: p.1.toList) :
    (fold c (p :: pairs)).result = (fold c pairs).result := by
  have hkey : isDriverKey p.1 = true := List.isPrefixOf_iff_prefix.2 hlead
  rw [fold, Config.applyOption?_of_not_names fun f hf => hoption ⟨f, hf⟩]
  simp only [hkey, if_true]

theorem exists_fold_cons_of_accepts {f : Config.Field} (hf : f.Names p.1)
    (haccepts : f.Accepts p.2) :
    ∃ c', fold c (p :: pairs) = fold c' pairs ∧ c'.Carries f p.2 ∧
      ∀ g, g ≠ f → c'.Agrees c g := by
  obtain ⟨c', hset, hcarries, hothers⟩ := Config.exists_set haccepts c p.1
  refine ⟨c', ?_, hcarries, hothers⟩
  rw [fold, Config.applyOption?_of_names hf, hset]
  rfl

theorem exists_result_fold_cons_of_refused (h : Refused p) :
    ∃ reason, (fold c (p :: pairs)).result =
      .error (.optionInvalid p.1 p.2 reason) := by
  obtain ⟨f, hf, hrefused⟩ := h
  obtain ⟨reason, hset⟩ := Config.exists_set_error hrefused c p.1
  refine ⟨reason, ?_⟩
  rw [fold, Config.applyOption?_of_names hf, hset]
  rfl

end Fold

/-- Every pair is refused, an accepted option, left, or ignored. -/
theorem pair_cases (p : Pair) :
    Refused p ∨ (∃ f : Config.Field, f.Names p.1 ∧ f.Accepts p.2) ∨ IsForeign p ∨
      (¬ IsOption p ∧ ['x', '-'] <+: p.1.toList) := by
  by_cases hoption : IsOption p
  · obtain ⟨f, hf⟩ := hoption
    by_cases haccepts : f.Accepts p.2
    · exact Or.inr (Or.inl ⟨f, hf, haccepts⟩)
    · exact Or.inl ⟨f, hf, haccepts⟩
  · by_cases hlead : ['x', '-'] <+: p.1.toList
    · exact Or.inr (Or.inr (Or.inr ⟨hoption, hlead⟩))
    · exact Or.inr (Or.inr (Or.inl ⟨hoption, hlead⟩))

theorem exists_fold {pairs : List Pair} (h : ∀ p ∈ pairs, ¬ Refused p)
    (base : Config) :
    ∃ c, (fold base pairs).result = .ok (c, pairs.filter (IsForeign ·)) ∧
      Gathers base pairs c := by
  induction pairs generalizing base with
  | nil => exact ⟨base, rfl, gathers_nil base⟩
  | cons p pairs ih =>
      obtain ⟨hp, hrest⟩ := List.forall_mem_cons.1 h
      rcases pair_cases p with hrefused | ⟨f, hf, haccepts⟩ | hforeign | hignored
      · exact absurd hrefused hp
      · obtain ⟨first, hfold, hcarries, hothers⟩ :=
          exists_fold_cons_of_accepts base pairs hf haccepts
        obtain ⟨c, hresult, hgathers⟩ := ih hrest first
        have hnot : ¬ IsForeign p := fun hforeign => hforeign.1 ⟨f, hf⟩
        refine ⟨c, ?_, hgathers.cons_of_names hf hcarries hothers⟩
        rw [hfold, hresult, List.filter_cons_of_neg (by simpa using hnot)]
      · obtain ⟨c, hresult, hgathers⟩ := ih hrest base
        refine ⟨c, ?_, hgathers.cons_of_not_isOption hforeign.1⟩
        rw [fold_cons_of_isForeign base pairs hforeign, hresult,
          List.filter_cons_of_pos (by simpa using hforeign)]
        rfl
      · obtain ⟨c, hresult, hgathers⟩ := ih hrest base
        have hnot : ¬ IsForeign p := fun hforeign => hforeign.2 hignored.2
        refine ⟨c, ?_, hgathers.cons_of_not_isOption hignored.1⟩
        rw [result_fold_cons_of_ignored base pairs hignored.1 hignored.2, hresult,
          List.filter_cons_of_neg (by simpa using hnot)]

theorem exists_fold_error {front : List Pair} (h : ∀ p ∈ front, ¬ Refused p)
    {p : Pair} (hp : Refused p) (back : List Pair) (base : Config) :
    ∃ reason, (fold base (front ++ p :: back)).result =
      .error (.optionInvalid p.1 p.2 reason) := by
  induction front generalizing base with
  | nil => exact exists_result_fold_cons_of_refused base back hp
  | cons q front ih =>
      obtain ⟨hq, hrest⟩ := List.forall_mem_cons.1 h
      rw [List.cons_append]
      rcases pair_cases q with hrefused | ⟨f, hf, haccepts⟩ | hforeign | hignored
      · exact absurd hrefused hq
      · obtain ⟨first, hfold, -, -⟩ :=
          exists_fold_cons_of_accepts base (front ++ p :: back) hf haccepts
        rw [hfold]
        exact ih hrest first
      · obtain ⟨reason, hresult⟩ := ih hrest base
        refine ⟨reason, ?_⟩
        rw [fold_cons_of_isForeign base _ hforeign, hresult]
        rfl
      · rw [result_fold_cons_of_ignored base _ hignored.1 hignored.2]
        exact ih hrest base

theorem exists_first_refused {pairs : List Pair} (h : ∃ p ∈ pairs, Refused p) :
    ∃ front p back, pairs = front ++ p :: back ∧ (∀ q ∈ front, ¬ Refused q) ∧
      Refused p := by
  obtain ⟨p, hp⟩ : ∃ p, pairs.find? (Refused ·) = some p := by
    rw [← Option.isSome_iff_exists, List.find?_isSome]
    simpa using h
  obtain ⟨hrefused, front, back, hpairs, hfront⟩ := List.find?_eq_some_iff_append.1 hp
  exact ⟨front, p, back, hpairs, fun q hq => by simpa using hfront q hq,
    of_decide_eq_true hrefused⟩

theorem eq_filter_of_fold {base c : Config} {pairs left : List Pair}
    (h : (fold base pairs).result = .ok (c, left)) :
    left = pairs.filter (IsForeign ·) := by
  have hnone : ∀ p ∈ pairs, ¬ Refused p := by
    by_contra hsome
    obtain ⟨front, p, back, rfl, hfront, hp⟩ :=
      exists_first_refused (by simpa using hsome)
    obtain ⟨reason, hfault⟩ := exists_fold_error hfront hp back base
    rw [h] at hfault
    cases hfault
  obtain ⟨c', hresult, -⟩ := exists_fold hnone base
  rw [h] at hresult
  cases hresult
  rfl

theorem pairs_withPairs (u : Url) (list : List Pair) :
    pairs (withPairs u list) = list := by
  rw [withPairs]
  split
  · next hempty =>
      have hquery : (withoutTrailingSpaces { u with query? := none }).query? =
          none := by
        rw [withoutTrailingSpaces]
        split <;> rfl
      rw [pairs, hquery]
      exact (List.isEmpty_iff.1 hempty).symm
  · rw [pairs]
    exact Form.read_render list

theorem parse_of_url {text : String} {u : Url} (h : Url.parse text = .ok u)
    (base : Config) : parse base text = ofUrl base u := by
  rw [parse, h]

/-- Reading a connection string fails for an option if and only if one of its pairs
is refused, and reports the first of them, as it is written. Otherwise each field of
the configuration has the value of the last pair that names it, or that of the
configuration below if there is none, and the pairs on the URL are those that are
not meant for the driver, in order. -/
theorem parse_folds (base : Config) {text : String} {u : Url}
    (h : Url.parse text = .ok u) :
    let result := (parse base text).1
    ((∃ key value reason, result = .error (.optionInvalid key value reason)) ↔
      ∃ p ∈ pairs u, Refused p) ∧
    (∀ front p back, pairs u = front ++ p :: back → (∀ q ∈ front, ¬ Refused q) →
      Refused p → ∃ reason, result = .error (.optionInvalid p.1 p.2 reason)) ∧
    ((∀ p ∈ pairs u, ¬ Refused p) → ∃ c, result = .ok c ∧
      Gathers base (pairs u) c.config ∧
      pairs c.url = (pairs u).filter (IsForeign ·)) := by
  intro result
  have hresult : result = (fold base (pairs u)).result.map fun r =>
      ⟨withPairs u r.2, r.1⟩ := by
    change (parse base text).1 = _
    rw [parse_of_url h]
    rfl
  have hfault : ∀ front p back, pairs u = front ++ p :: back →
      (∀ q ∈ front, ¬ Refused q) → Refused p →
      ∃ reason, result = .error (.optionInvalid p.1 p.2 reason) := by
    intro front p back hpairs hfront hp
    obtain ⟨reason, hfold⟩ := exists_fold_error hfront hp back base
    exact ⟨reason, by rw [hresult, hpairs, hfold]; rfl⟩
  have hok : (∀ p ∈ pairs u, ¬ Refused p) → ∃ c, result = .ok c ∧
      Gathers base (pairs u) c.config ∧
      pairs c.url = (pairs u).filter (IsForeign ·) := by
    intro hnone
    obtain ⟨c, hfold, hgathers⟩ := exists_fold hnone base
    refine ⟨⟨withPairs u _, c⟩, by rw [hresult, hfold]; rfl, hgathers, ?_⟩
    exact pairs_withPairs u _
  refine ⟨⟨?_, fun hsome => ?_⟩, hfault, hok⟩
  · rintro ⟨key, value, reason, hinvalid⟩
    by_contra hnone
    obtain ⟨c, hc, -⟩ := hok fun p hp hrefused => hnone ⟨p, hp, hrefused⟩
    rw [hinvalid] at hc
    cases hc
  · obtain ⟨front, p, back, hpairs, hfront, hp⟩ := exists_first_refused hsome
    obtain ⟨reason, hinvalid⟩ := hfault front p back hpairs hfront hp
    exact ⟨p.1, p.2, reason, hinvalid⟩

/-- Of two values of an option the later one counts, and pairs for the database are
kept with their repetitions. The first value that is refused is reported, though a
later one would be, too. -/
theorem parse_folds_of_repeated_options :
    let base : Config := { multiStatementMaxSize := 5 }
    (∃ c, (parse base ("duckdb:/a?multi-statement=true&threads=4" ++
        "&x-multi-statement=false&threads=4&x-x-multi-statement=?")).1 = .ok c ∧
      c.config.Carries .multiStatement "false" ∧
      c.config.Agrees base .multiStatementMaxSize ∧
      pairs c.url = [("threads", "4"), ("threads", "4")]) ∧
    ∃ reason, (parse base ("duckdb:/a?multi-statement=true" ++
        "&x-multi-statement-max-size=-9223372036854775809&multi-statement=1")).1 =
      .error (.optionInvalid "x-multi-statement-max-size" "-9223372036854775809"
        reason) := by
  intro base
  let u (query : String) : Url :=
    { scheme := "duckdb", path := .segments [['a']], query? := some query }
  constructor
  · have hparse : Url.parse ("duckdb:/a?multi-statement=true&threads=4" ++
        "&x-multi-statement=false&threads=4&x-x-multi-statement=?") =
        .ok (u ("multi-statement=true&threads=4" ++
          "&x-multi-statement=false&threads=4&x-x-multi-statement=?")) := by
      decide +kernel
    obtain ⟨c, hc, hgathers, hpairs⟩ :=
      (parse_folds base hparse).2.2 (by decide +kernel)
    exact ⟨c, hc, (hgathers .multiStatement).1 _ (by decide +kernel),
      (hgathers .multiStatementMaxSize).2 (by decide +kernel),
      hpairs.trans (by decide +kernel)⟩
  · have hparse : Url.parse ("duckdb:/a?multi-statement=true" ++
        "&x-multi-statement-max-size=-9223372036854775809&multi-statement=1") =
        .ok (u ("multi-statement=true" ++
          "&x-multi-statement-max-size=-9223372036854775809&multi-statement=1")) := by
      decide +kernel
    exact (parse_folds base hparse).2.1 [("multi-statement", "true")]
      ("x-multi-statement-max-size", "-9223372036854775809") [("multi-statement", "1")]
      (by decide +kernel) (by decide +kernel) (by decide +kernel)

end SchemaLedger.ConnectionString
