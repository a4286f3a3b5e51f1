import Mathlib.Data.List.Infix
import SchemaLedger.Engine.Fault
/-!
# Faults told by their wording

The engine words its faults freely, and a fault is taken for a missing relation by
what its message mentions. `ofEngine_wording` says which messages are taken so. One of
the phrases that decide it, that a table or a view has some name, is also how the
engine says that the name is taken, and every phrase counts wherever it stands, so a
message also mentions what stands in the names and literals that it quotes.
-/

namespace SchemaLedger

namespace DatabaseError

def Mentions (reason text : String) : Prop :=
  text.toList <:+: reason.toList

instance (reason text : String) : Decidable (Mentions reason text) :=
  inferInstanceAs (Decidable (_ <:+: _))

/-- The phrases each of which makes a message one about a missing relation. -/
def relationPhrases : List String :=
  ["Table with name", "View with name", "Table or view with name"]

def catalogPhrases : List String :=
  ["Catalog Error", "Table", "not found"]

/-- A message says that something is missing. -/
def ReportsMissing (reason : String) : Prop :=
  Mentions reason "does not exist" ∨ Mentions reason "not found"

theorem occursIn_iff {needle text : List Char} :
    occursIn needle text = true ↔ needle <:+: text := by
  induction text with
  | nil => rw [occursIn, List.isEmpty_iff, List.infix_nil]
  | cons c text ih =>
      rw [occursIn, Bool.or_eq_true, ih, List.isPrefixOf_iff_prefix,
        List.infix_cons_iff]

theorem namesMissingRelation_iff {reason : String} :
    namesMissingRelation reason = true ↔
      (∃ phrase ∈ relationPhrases, Mentions reason phrase) ∨
      ∀ phrase ∈ catalogPhrases, Mentions reason phrase := by
  simp only [namesMissingRelation, Bool.or_eq_true, Bool.and_eq_true, occursIn_iff]
  simp [relationPhrases, catalogPhrases, Mentions, or_assoc, and_assoc]

theorem isNotFound_ofEngine (sql reason : String) :
    (ofEngine sql reason).isNotFound = namesMissingRelation reason := by
  rw [ofEngine]
  split
  · next h => exact h.symm
  · next h => exact (Bool.eq_false_iff.2 h).symm

theorem ofEngine_eq_execution_iff {sql reason : String} :
    ofEngine sql reason = .execution sql reason ↔
      (∀ phrase ∈ relationPhrases, ¬ Mentions reason phrase) ∧
      ∃ phrase ∈ catalogPhrases, ¬ Mentions reason phrase := by
  have h : ofEngine sql reason = .execution sql reason ↔
      ¬ namesMissingRelation reason = true := by
    rw [ofEngine]
    split
    · next hnames => simp [hnames]
    · next hnames => simp [hnames]
  rw [h, namesMissingRelation_iff]
  push Not
  rfl

/-- Nothing but a phrase that stands for a relation with some name makes a message
one about a missing relation unless it says that something is missing. -/
theorem isNotFound_only_if_iff {sql reason : String} :
    ((ofEngine sql reason).isNotFound = true → ReportsMissing reason) ↔
      ((∃ phrase ∈ relationPhrases, Mentions reason phrase) →
        ReportsMissing reason) := by
  rw [isNotFound_ofEngine, namesMissingRelation_iff]
  refine ⟨fun h hphrase => h (Or.inl hphrase), fun h hnames => ?_⟩
  rcases hnames with hphrase | hall
  · exact h hphrase
  · exact Or.inr (hall "not found" (by decide))

theorem eq_nil_of_prefix_cons {needle back : List Char} {q : Char} (hq : q ∉ needle)
    (h : needle <+: q :: back) : needle = [] := by
  rcases List.prefix_cons_iff.1 h with hnil | ⟨rest, rfl, -⟩
  · exact hnil
  · exact absurd List.mem_cons_self hq

theorem infix_append_cons_iff {needle front back : List Char} {q : Char}
    (hq : q ∉ needle) :
    needle <:+: front ++ q :: back ↔ needle <:+: front ∨ needle <:+: back := by
  rw [List.infix_append_iff, List.infix_cons_iff]
  constructor
  · rintro (h | (h | h) | ⟨s, t, rfl, hs, ht⟩)
    · exact Or.inl h
    · rw [eq_nil_of_prefix_cons hq h]
      exact Or.inl List.nil_infix
    · exact Or.inr h
    · have hnil : t = [] :=
        eq_nil_of_prefix_cons (fun h => hq (List.mem_append_right s h)) ht
      rw [hnil, List.append_nil]
      exact Or.inl hs.isInfix
  · rintro (h | h)
    · exact Or.inl h
    · exact Or.inr (Or.inl (Or.inr h))

def quoting (front text back : String) : String :=
  front ++ "\"" ++ text ++ "\"" ++ back

/-- A phrase without a quote stands in the text that is quoted, or in front of it, or
behind it. -/
theorem mentions_quoting_iff {front text back phrase : String}
    (hphrase : '"' ∉ phrase.toList) :
    Mentions (quoting front text back) phrase ↔
      Mentions front phrase ∨ Mentions text phrase ∨ Mentions back phrase := by
  have hlist : (quoting front text back).toList =
      front.toList ++ '"' :: (text.toList ++ '"' :: back.toList) := by
    simp [quoting, String.toList_append]
  rw [Mentions, hlist, infix_append_cons_iff hphrase, infix_append_cons_iff hphrase]
  rfl

theorem not_mem_phrase {phrase : String}
    (h : phrase ∈ relationPhrases ∨ phrase ∈ catalogPhrases) :
    '"' ∉ phrase.toList := by
  have hall : ∀ phrase ∈ relationPhrases ++ catalogPhrases,
      '"' ∉ phrase.toList := by decide
  exact hall phrase (List.mem_append.2 h)

theorem ofEngine_quoting_eq_execution_iff {sql front text back : String} :
    ofEngine sql (quoting front text back) =
        .execution sql (quoting front text back) ↔
      (∀ phrase ∈ relationPhrases,
        ∀ part ∈ [front, text, back], ¬ Mentions part phrase) ∧
      ∃ phrase ∈ catalogPhrases,
        ∀ part ∈ [front, text, back], ¬ Mentions part phrase := by
  have hparts : ∀ phrase, phrase ∈ relationPhrases ∨ phrase ∈ catalogPhrases →
      (¬ Mentions (quoting front text back) phrase ↔
        ∀ part ∈ [front, text, back], ¬ Mentions part phrase) := by
    intro phrase hphrase
    rw [mentions_quoting_iff (not_mem_phrase hphrase)]
    simp
  rw [ofEngine_eq_execution_iff]
  refine and_congr ?_ ?_
  · exact forall₂_congr fun phrase h => hparts phrase (Or.inl h)
  · exact exists_congr fun phrase => and_congr_right fun h =>
      hparts phrase (Or.inr h)

end DatabaseError

namespace Engine.Fault

open DatabaseError

/-- How the engine begins to say that the name of an object is taken. -/
def takenFront (kind : ObjectKind) : String :=
  "Catalog Error: " ++ kindName kind ++ " with name "

theorem message_taken (kind : ObjectKind) (name : String) :
    (taken kind name).message =
      quoting (takenFront kind) name " already exists!" := by
  have hfront : " with name \"" = " with name " ++ "\"" := by decide
  have hback : "\" already exists!" = "\"" ++ " already exists!" := by decide
  have hassoc : ∀ front quote back : String,
      front ++ (quote ++ "\"") ++ name ++ ("\"" ++ back) =
        quoting (front ++ quote) name back := by
    intro front quote back
    simp only [quoting, String.append_assoc]
  have hmessage := congrArg₂
    (fun front back => "Catalog Error: " ++ kindName kind ++ front ++ name ++ back)
    hfront hback
  exact hmessage.trans (hassoc _ _ _)

theorem not_mentions_takenFront_iff (kind : ObjectKind) :
    (∀ phrase ∈ relationPhrases, ¬ Mentions (takenFront kind) phrase) ↔
      kind ≠ .table ∧ kind ≠ .view := by
  cases kind <;> decide

theorem mentions_takenFront (kind : ObjectKind) :
    Mentions (takenFront kind) "Catalog Error" ∧
    ¬ Mentions (takenFront kind) "not found" ∧
    (Mentions (takenFront kind) "Table" ↔ kind = .table ∨ kind = .tableMacro) := by
  cases kind <;> decide

end Engine.Fault

namespace DatabaseError

open Engine

theorem ofEngine_catalog_eq_execution_iff {sql front text back : String}
    (hcatalog : Mentions front "Catalog Error") (hfound : ¬ Mentions front "not found")
    (hback : ∀ phrase ∈ relationPhrases ++ catalogPhrases, ¬ Mentions back phrase) :
    ofEngine sql (quoting front text back) =
        .execution sql (quoting front text back) ↔
      (∀ phrase ∈ relationPhrases, ¬ Mentions front phrase) ∧
      (∀ phrase ∈ relationPhrases, ¬ Mentions text phrase) ∧
      (Mentions text "not found" →
        ¬ Mentions front "Table" ∧ ¬ Mentions text "Table") := by
  rw [List.forall_mem_append] at hback
  have hrelation : (∀ phrase ∈ relationPhrases,
        ∀ part ∈ [front, text, back], ¬ Mentions part phrase) ↔
      (∀ phrase ∈ relationPhrases, ¬ Mentions front phrase) ∧
        ∀ phrase ∈ relationPhrases, ¬ Mentions text phrase := by
    simp only [List.forall_mem_cons, List.not_mem_nil, false_implies, implies_true,
      and_true, forall_and]
    exact ⟨fun h => ⟨h.1, h.2.1⟩, fun h => ⟨h.1, h.2, hback.1⟩⟩
  have hlast : (∃ phrase ∈ catalogPhrases,
        ∀ part ∈ [front, text, back], ¬ Mentions part phrase) ↔
      (Mentions text "not found" →
        ¬ Mentions front "Table" ∧ ¬ Mentions text "Table") := by
    have hback := hback.2
    rw [catalogPhrases] at hback ⊢
    simp only [List.forall_mem_cons, List.not_mem_nil, false_implies, implies_true,
      and_true] at hback
    simp only [List.exists_mem_cons_iff, List.forall_mem_cons, List.not_mem_nil,
      false_implies, implies_true, and_true, hback, hcatalog, hfound, false_and,
      exists_false, or_false, not_true, not_false_eq_true, true_and, false_or]
    exact or_comm.trans imp_iff_not_or.symm
  rw [ofEngine_quoting_eq_execution_iff, hrelation, hlast, and_assoc]

/-- That a name is taken is an error of execution for no name of a table or of a view,
and for the other kinds unless the name itself speaks of a missing relation. -/
theorem ofEngine_taken_eq_execution_iff {sql : String} {kind : ObjectKind}
    {name : String} :
    ofEngine sql (Fault.taken kind name).message =
        .execution sql (Fault.taken kind name).message ↔
      kind ≠ .table ∧ kind ≠ .view ∧
      (∀ phrase ∈ relationPhrases, ¬ Mentions name phrase) ∧
      (Mentions name "not found" → kind ≠ .tableMacro ∧ ¬ Mentions name "Table") := by
  have hback : ∀ phrase ∈ relationPhrases ++ catalogPhrases,
      ¬ Mentions " already exists!" phrase := by decide
  obtain ⟨hcatalog, hfound, htable⟩ := Fault.mentions_takenFront kind
  rw [Fault.message_taken, ofEngine_catalog_eq_execution_iff hcatalog hfound hback,
    Fault.not_mentions_takenFront_iff, and_assoc]
  refine and_congr_right fun hkind => and_congr_right fun _ => and_congr_right fun _ =>
    imp_congr_right fun _ => and_congr_left fun _ => ?_
  rw [htable, not_or]
  exact and_iff_right hkind

/-- What is taken for a missing relation: which messages are so although they do not
say that anything is missing, which of those that say that a name is taken, and which
of those that quote a text. -/
theorem ofEngine_wording (sql : String) :
    (∀ reason,
      ((ofEngine sql reason).isNotFound = true → ReportsMissing reason) ↔
        ((∃ phrase ∈ relationPhrases, Mentions reason phrase) →
          ReportsMissing reason)) ∧
    (∀ kind name,
      let reason := (Fault.taken kind name).message
      ofEngine sql reason = .execution sql reason ↔
        kind ≠ .table ∧ kind ≠ .view ∧
        (∀ phrase ∈ relationPhrases, ¬ Mentions name phrase) ∧
        (Mentions name "not found" →
          kind ≠ .tableMacro ∧ ¬ Mentions name "Table")) ∧
    ∀ front text back,
      let reason := quoting front text back
      ofEngine sql reason = .execution sql reason ↔
        (∀ phrase ∈ relationPhrases,
          ∀ part ∈ [front, text, back], ¬ Mentions part phrase) ∧
        ∃ phrase ∈ catalogPhrases,
          ∀ part ∈ [front, text, back], ¬ Mentions part phrase :=
  ⟨fun _ => isNotFound_only_if_iff, fun _ _ => ofEngine_taken_eq_execution_iff,
    fun _ _ _ => ofEngine_quoting_eq_execution_iff⟩

/-- The name of a table is taken, and the fault is that the table is missing. -/
theorem taken_table_not_found :
    let reason := (Fault.taken .table "t").message
    reason = "Catalog Error: Table with name \"t\" already exists!" ∧
    ¬ ReportsMissing reason ∧
    ofEngine "CREATE TABLE t (id INT)" reason =
      .relationMissing "CREATE TABLE t (id INT)" reason ∧
    (ofEngine "CREATE TABLE t (id INT)" reason).isNotFound = true := by
  intro reason
  have hnames : namesMissingRelation reason = true := by decide
  have hof : ofEngine "CREATE TABLE t (id INT)" reason =
      .relationMissing "CREATE TABLE t (id INT)" reason := if_pos hnames
  refine ⟨by decide, ?_, hof, ?_⟩
  · rw [ReportsMissing]
    decide
  · rw [hof]
    rfl

end DatabaseError

end SchemaLedger
