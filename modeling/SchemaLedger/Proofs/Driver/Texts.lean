import SchemaLedger.Proofs.Driver.Eager
import SchemaLedger.Proofs.Text.Validity
/-!
# Executing text and what is no text

A database that accepts every statement leaves one way in which the execution of a
script that is not too long can stop early: a piece of it is no text. Since the
semicolon and the blanks that are taken off are ASCII characters, that comes to the
script being no text as a whole, `ofScript_of_accepting`; what has been executed by then
are the texts in front of the first such piece, blank ones left out.
-/

namespace SchemaLedger

open Utf8 (IsText)

variable {σ : Type}

def Database.Accepting (db : Database σ) : Prop :=
  ∀ mode sql d, ∃ n d', db.step (.execute mode sql) d = (.ok n, d')

namespace Config

theorem isText_iff_forall_pieces (c : Config) (script : List UInt8) :
    IsText script ↔ ∀ piece ∈ c.pieces script, IsText piece := by
  rw [pieces]
  split
  · exact Utf8.isText_iff_forall_splitOn (by decide) script
  · rw [List.forall_mem_singleton]

theorem length_le_of_mem_splitOn {x : UInt8} {bytes piece : List UInt8}
    (h : piece ∈ bytes.splitOn x) : piece.length ≤ bytes.length := by
  induction bytes generalizing piece with
  | nil =>
      rw [List.splitOn_nil, List.mem_singleton] at h
      rw [h]
  | cons b bytes ih =>
      rw [List.splitOn_cons_eq_if_modifyHead] at h
      split at h
      · rcases List.mem_cons.1 h with rfl | h
        · exact Nat.zero_le _
        · exact Nat.le_succ_of_le (ih h)
      · cases hsplit : bytes.splitOn x with
        | nil => simp [hsplit] at h
        | cons q qs =>
            rw [hsplit] at ih h
            rcases List.mem_cons.1 h with rfl | h
            · exact Nat.succ_le_succ (ih List.mem_cons_self)
            · exact Nat.le_succ_of_le (ih (List.mem_cons_of_mem q h))

theorem length_le_of_mem_pieces {c : Config} {script piece : List UInt8}
    (h : piece ∈ c.pieces script) : piece.length ≤ script.length := by
  rw [pieces] at h
  split at h
  · exact length_le_of_mem_splitOn h
  · rw [List.mem_singleton.1 h]

end Config

namespace Execution

def callsOf (texts : List String) : List Call :=
  ((texts.map Blank.trim).filter (· ≠ "")).map fun sql =>
    .execute (.ofKind (.ofText sql)) sql

@[simp] theorem callsOf_nil : callsOf [] = [] := rfl

theorem callsOf_cons_of_blank {text : String} (h : Blank.trim text = "")
    (texts : List String) : callsOf (text :: texts) = callsOf texts := by
  rw [callsOf, List.map_cons, List.filter_cons_of_neg (by simpa using h), callsOf]

theorem callsOf_cons_of_not_blank {text : String} (h : Blank.trim text ≠ "")
    (texts : List String) :
    callsOf (text :: texts) =
      .execute (.ofKind (.ofText (Blank.trim text))) (Blank.trim text) ::
        callsOf texts := by
  rw [callsOf, List.map_cons, List.filter_cons_of_pos (by simpa using h),
    List.map_cons, callsOf]

variable {db : Database σ}

/-- Executing stops as `o'` does, with some calls before. -/
def LeadsTo (calls : List Call) (o o' : Outcome σ) : Prop :=
  o.fault? = o'.fault? ∧ o.calls = calls ++ o'.calls

theorem eager_texts (haccepting : db.Accepting) (texts : List String)
    (ps : List (List UInt8)) (d : σ) :
    ∃ d', LeadsTo (callsOf texts) (eager db none (texts.map Utf8.encode ++ ps) d)
      (eager db none ps d') := by
  induction texts generalizing d with
  | nil => exact ⟨d, rfl, rfl⟩
  | cons text texts ih =>
      obtain ⟨t, ht, htrim⟩ := Utf8.exists_of_trim text
      have hdecode : Utf8.decode? (Ascii.trim (Utf8.encode text)) = some t := by
        rw [← ht, Utf8.decode?_encode]
      have hcons : eager db none ((text :: texts).map Utf8.encode ++ ps) =
          send db (Utf8.encode text) (eager db none (texts.map Utf8.encode ++ ps)) :=
        rfl
      rw [hcons]
      by_cases hblank : Blank.trim text = ""
      · rw [send_of_blank db hdecode (htrim.trans hblank),
          callsOf_cons_of_blank hblank]
        exact ih d
      · rw [send_of_text db hdecode (htrim ▸ hblank), htrim,
          callsOf_cons_of_not_blank hblank]
        obtain ⟨n, d', hstep⟩ := haccepting (.ofKind (.ofText (Blank.trim text)))
          (Blank.trim text) d
        obtain ⟨d'', hfault, hcalls⟩ := ih d'
        rw [hstep]
        exact ⟨d'', hfault, congrArg (List.cons _) hcalls⟩

theorem eager_cons_of_not_isText {p : List UInt8} (hp : ¬ IsText p)
    (ps : List (List UInt8)) :
    eager db none (p :: ps) = .ended (some (.statementNotText (Ascii.trim p))) :=
  send_of_not_text db (Utf8.decode?_eq_none_iff.2 (mt Utf8.isText_trim_iff.1 hp)) _

theorem eager_of_forall_le {cap? : Option Nat} {ps : List (List UInt8)}
    (h : ∀ cap ∈ cap?, ∀ p ∈ ps, p.length ≤ cap) :
    eager db cap? ps = eager db none ps := by
  induction ps with
  | nil => rfl
  | cons p ps ih =>
      have hps := ih fun cap hcap q hq => h cap hcap q (List.mem_cons_of_mem p hq)
      have hp : cap?.filter (· < p.length) = none := by
        refine Option.filter_eq_none_iff.2 fun cap hcap => ?_
        have := h cap hcap p List.mem_cons_self
        simpa using this
      simp only [eager, hps, hp, Option.filter_none]

theorem texts_or_exists_first (ps : List (List UInt8)) :
    (∃ texts : List String, ps = texts.map Utf8.encode) ∨
      ∃ (texts : List String) (p : List UInt8) (rest : List (List UInt8)),
        ps = texts.map Utf8.encode ++ p :: rest ∧ ¬ IsText p := by
  induction ps with
  | nil => exact Or.inl ⟨[], rfl⟩
  | cons p ps ih =>
      by_cases hp : IsText p
      · obtain ⟨text, rfl⟩ := hp
        rcases ih with ⟨texts, rfl⟩ | ⟨texts, q, rest, rfl, hq⟩
        · exact Or.inl ⟨text :: texts, rfl⟩
        · exact Or.inr ⟨text :: texts, q, rest, rfl, hq⟩
      · exact Or.inr ⟨[], p, ps, rfl, hp⟩

/-- Executing a script that is not too long, on a database that accepts every
statement, fails at the first piece that is no text, and not if the script as a whole is
text. -/
theorem ofScript_of_accepting (haccepting : db.Accepting) (c : Config)
    {source : Source} (hfault : source.fault? = none)
    (hcap : ∀ cap ∈ c.cap?, source.content.length ≤ cap) (s : Session σ) :
    let script := source.content
    let result := (ofScript db c source s).result
    let calls := (ofScript db.recorded c source
      { s with database := (s.database, []) }).session.database.2
    ((∃ bytes, result = .error (.statementNotText bytes)) ↔ ¬ IsText script) ∧
    (∀ texts p rest, c.pieces script = texts.map Utf8.encode ++ p :: rest →
      ¬ IsText p →
      result = .error (.statementNotText (Ascii.trim p)) ∧ calls = callsOf texts) ∧
    ∀ texts, c.pieces script = texts.map Utf8.encode →
      (∃ summary, result = .ok summary) ∧ calls = callsOf texts := by
  intro script result calls
  have hresult := (ofScript_pieces db c hfault s).1
  have hcalls := congrArg Prod.snd (database_ofScript_recorded db c hfault s [])
  have hshort : ∀ cap ∈ c.cap?, ∀ p ∈ c.pieces script, p.length ≤ cap :=
    fun cap hmem p hp => Nat.le_trans (Config.length_le_of_mem_pieces hp) (hcap cap hmem)
  rw [eager_of_forall_le hshort] at hresult hcalls
  have hstops : ∀ texts p rest, c.pieces script = texts.map Utf8.encode ++ p :: rest →
      ¬ IsText p →
      result = .error (.statementNotText (Ascii.trim p)) ∧ calls = callsOf texts := by
    intro texts p rest hpieces hp
    obtain ⟨d, hleads⟩ := eager_texts haccepting texts (p :: rest) s.database
    rw [← hpieces, eager_cons_of_not_isText hp] at hleads
    exact ⟨hresult.trans (Outcome.result_of_fault hleads.1),
      hcalls.trans (hleads.2.trans (List.append_nil _))⟩
  have hends : ∀ texts, c.pieces script = texts.map Utf8.encode →
      (∃ summary, result = .ok summary) ∧ calls = callsOf texts := by
    intro texts hpieces
    obtain ⟨d, hleads⟩ := eager_texts haccepting texts [] s.database
    rw [List.append_nil, ← hpieces] at hleads
    exact ⟨⟨_, hresult.trans (Outcome.result_of_no_fault hleads.1)⟩,
      hcalls.trans (hleads.2.trans (List.append_nil _))⟩
  refine ⟨?_, hstops, hends⟩
  rw [c.isText_iff_forall_pieces script]
  rcases texts_or_exists_first (c.pieces script) with
    ⟨texts, hpieces⟩ | ⟨texts, p, rest, hpieces, hp⟩
  · obtain ⟨⟨summary, hok⟩, -⟩ := hends texts hpieces
    refine iff_of_false (fun ⟨bytes, hbad⟩ => ?_) (not_not.2 ?_)
    · rw [hok] at hbad
      cases hbad
    · rw [hpieces, List.forall_mem_map]
      exact fun text _ => Utf8.isText_encode text
  · refine iff_of_true ⟨_, (hstops texts p rest hpieces hp).1⟩ fun hall => ?_
    exact hp (hall p (by rw [hpieces]; simp))

/-- A database that accepts every statement and does nothing else. -/
def obliging : Database Unit where
  name := "obliging"
  step
    | .execute .., d => (.ok 0, d)
    | _, d => (.error .closed, d)

/-- A script read in two parts that meet inside a character, with a piece that is no
text behind a piece that is. -/
theorem ofScript_of_accepting_of_split_character :
    let source : Source :=
      [.bytes [0xC3], .interrupted, .bytes [0xA9, 0x3B, 0x20, 0xFF, 0x3B, 0x61]]
    let c : Config := { multiStatement := true }
    (ofScript obliging c source { database := () }).result =
        .error (.statementNotText [0xFF]) ∧
      (ofScript obliging.recorded c source { database := ((), []) }).session.database.2 =
        [.execute .data "é"] := by
  intro source c
  have haccepting : obliging.Accepting := fun mode sql d => ⟨0, d, rfl⟩
  have hfault : source.fault? = none := rfl
  have hcap : ∀ cap ∈ c.cap?, source.content.length ≤ cap := by decide
  have hpieces : c.pieces source.content =
      ["é"].map Utf8.encode ++ [0x20, 0xFF] :: [[0x61]] := by decide +kernel
  have hnot : ¬ IsText [0x20, 0xFF] := by
    rw [← Utf8.decode?_eq_none_iff]
    decide +kernel
  have h := ofScript_of_accepting haccepting c hfault hcap { database := () }
  obtain ⟨hresult, hcalls⟩ := h.2.1 ["é"] _ _ hpieces hnot
  refine ⟨hresult.trans rfl, hcalls.trans ?_⟩
  decide +kernel

end Execution

end SchemaLedger
