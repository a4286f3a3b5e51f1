import SchemaLedger.Config.Basic
import SchemaLedger.Proofs.Text.Numerals
/-!
# Options

What one option does to a configuration. A key names a field with or without `x-` in
front, and what the key names decides which values are accepted. An accepted value is
what the field carries afterwards, while the other fields stay as they were; any
other value is refused with the key and the value as they are written.
-/

namespace SchemaLedger.Config

namespace Field

/-- The key is that of the field, perhaps behind `x-`. -/
def Names (f : Field) (key : String) : Prop :=
  key = f.key ∨ key = "x-" ++ f.key

instance (f : Field) (key : String) : Decidable (f.Names key) :=
  inferInstanceAs (Decidable (key = f.key ∨ key = "x-" ++ f.key))

/-- The values that a field can be given: any text for the table, a truth value, and
the numeral of a 64-bit integer. -/
def Accepts : Field → String → Prop
  | migrationsTable, _ => True
  | multiStatement, value => value = "true" ∨ value = "false"
  | multiStatementMaxSize, value =>
    ∃ n : Int64, Integer.Denotes value.toList n.toInt

instance (value : String) : (f : Field) → Decidable (f.Accepts value)
  | migrationsTable => isTrue trivial
  | multiStatement => inferInstanceAs (Decidable (value = "true" ∨ value = "false"))
  | multiStatementMaxSize =>
    match hread : Integer.read value with
    | .ok n => isTrue ⟨n, (Integer.read_eq_ok_iff value n).1 hread⟩
    | .error _ => isFalse fun ⟨n, hn⟩ => by
      rw [(Integer.read_eq_ok_iff value n).2 hn] at hread
      cases hread

theorem ofKey?_eq_some_iff {key : String} {f : Field} :
    ofKey? key = some f ↔ key = f.key := by
  constructor
  · intro h
    have hkey := List.find?_some h
    exact (beq_iff_eq.1 hkey).symm
  · rintro rfl
    cases f <;> decide

/-- The field of an option is the one that its key names. -/
theorem ofOption?_eq_some_iff {key : String} {f : Field} :
    ofOption? key = some f ↔ f.Names key := by
  constructor
  · intro h
    rw [ofOption?, ofKey?_eq_some_iff, withoutLead] at h
    split at h
    · next hlead =>
        obtain ⟨rest, hrest⟩ := List.isPrefixOf_iff_prefix.1 hlead
        rw [← hrest, List.drop_left] at h
        refine Or.inr (String.toList_inj.1 ?_)
        rw [String.toList_append, ← h, ← hrest, String.toList_ofList (l := rest)]
        rfl
    · rw [String.ofList_toList] at h
      exact Or.inl h
  · rintro (rfl | rfl) <;> cases f <;> decide

theorem Names.unique {f g : Field} {key : String} (hf : f.Names key)
    (hg : g.Names key) : f = g := by
  rw [← ofOption?_eq_some_iff] at hf hg
  exact Option.some.inj (hf.symm.trans hg)

end Field

variable (c : Config)

/-- The field has the value that is written so. -/
def Carries : Field → String → Prop
  | .migrationsTable, value => c.migrationsTable = value
  | .multiStatement, value => value = if c.multiStatement then "true" else "false"
  | .multiStatementMaxSize, value =>
    Integer.Denotes value.toList c.multiStatementMaxSize.toInt

/-- The configurations have the same value in the field. -/
def Agrees (d : Config) : Field → Prop
  | .migrationsTable => c.migrationsTable = d.migrationsTable
  | .multiStatement => c.multiStatement = d.multiStatement
  | .multiStatementMaxSize => c.multiStatementMaxSize = d.multiStatementMaxSize

variable {c}

theorem Agrees.refl (f : Field) : c.Agrees c f := by
  cases f <;> rfl

theorem Agrees.trans {d e : Config} {f : Field} (h : c.Agrees d f)
    (h' : d.Agrees e f) : c.Agrees e f := by
  cases f <;> exact Eq.trans h h'

theorem Agrees.carries {d : Config} {f : Field} {value : String}
    (h : c.Agrees d f) (hd : d.Carries f value) : c.Carries f value := by
  cases f with
  | migrationsTable => exact Eq.trans h hd
  | multiStatement =>
      rw [Carries, show c.multiStatement = d.multiStatement from h]
      exact hd
  | multiStatementMaxSize =>
      rw [Carries, show c.multiStatementMaxSize = d.multiStatementMaxSize from h]
      exact hd

theorem readBool?_eq_some_iff {value : String} {b : Bool} :
    readBool? value = some b ↔ value = if b then "true" else "false" := by
  constructor
  · intro h
    rw [readBool?] at h
    split at h
    · next htrue =>
        cases h
        exact htrue
    · split at h
      · next hfalse =>
          cases h
          exact hfalse
      · cases h
  · rintro rfl
    cases b <;> decide

theorem exists_set {f : Field} {value : String} (h : f.Accepts value)
    (c : Config) (key : String) :
    ∃ c', c.set key value f = .ok c' ∧ c'.Carries f value ∧
      ∀ g, g ≠ f → c'.Agrees c g := by
  cases f with
  | migrationsTable =>
      refine ⟨_, rfl, rfl, fun g hg => ?_⟩
      cases g <;> first | rfl | exact absurd rfl hg
  | multiStatement =>
      obtain ⟨b, hb⟩ : ∃ b, readBool? value = some b := by
        rcases h with rfl | rfl
        · exact ⟨true, rfl⟩
        · exact ⟨false, rfl⟩
      refine ⟨{ c with multiStatement := b }, by rw [set, hb],
        readBool?_eq_some_iff.1 hb, fun g hg => ?_⟩
      cases g <;> first | rfl | exact absurd rfl hg
  | multiStatementMaxSize =>
      obtain ⟨n, hn⟩ := h
      refine ⟨{ c with multiStatementMaxSize := n },
        by rw [set, (Integer.read_eq_ok_iff value n).2 hn], hn, fun g hg => ?_⟩
      cases g <;> first | rfl | exact absurd rfl hg

theorem exists_set_error {f : Field} {value : String} (h : ¬ f.Accepts value)
    (c : Config) (key : String) :
    ∃ reason, c.set key value f = .error (.optionInvalid key value reason) := by
  cases f with
  | migrationsTable => exact absurd trivial h
  | multiStatement =>
      have hnone : readBool? value = none := by
        rw [readBool?, if_neg fun heq => h (Or.inl heq),
          if_neg fun heq => h (Or.inr heq)]
      exact ⟨_, by rw [set, hnone]⟩
  | multiStatementMaxSize =>
      cases hread : Integer.read value with
      | ok n => exact absurd ⟨n, (Integer.read_eq_ok_iff value n).1 hread⟩ h
      | error fault => exact ⟨_, by rw [set, hread]⟩

theorem applyOption?_of_names {f : Field} {key : String} (h : f.Names key)
    (c : Config) (value : String) :
    c.applyOption? key value = some <$> c.set key value f := by
  rw [applyOption?, Field.ofOption?_eq_some_iff.2 h]

theorem applyOption?_of_not_names {key : String}
    (h : ∀ f : Field, ¬ f.Names key) (c : Config) (value : String) :
    c.applyOption? key value = .ok none := by
  have hnone : Field.ofOption? key = none :=
    Option.eq_none_iff_forall_ne_some.2 fun f hf =>
      h f (Field.ofOption?_eq_some_iff.1 hf)
  rw [applyOption?, hnone]

end SchemaLedger.Config
