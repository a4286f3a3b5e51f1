import Mathlib.Data.List.Basic
import Mathlib.Data.List.Nodup
import Mathlib.Tactic.Linarith
import SchemaLedger.Proofs.Driver.Traces
import SchemaLedger.Proofs.Version.Dropping
/-!
# What dropping everything tries

A database may refuse to drop an object, or drop it, for reasons of its own, and
differently the next time. Whatever it does, every entry of the listing is accounted
for: `dropAll_accounts` says which entries each pass tries, that there are not many
tries in all, and what the outcome tells about each entry.

A listing may name an object twice, so entries are objects with their places. The
passes are seen as the attempts that they consist of: `Passes` says how one pass
leads to the next, and every count is an induction over it.
-/

namespace SchemaLedger

variable {σ : Type}

namespace VersionStore

/-- An object, and its place in a listing. -/
abbrev Entry := CatalogObject × Nat

/-- An attempt to drop an entry, and what the database answered. -/
structure Attempt where
  entry : Entry
  answer : Except DatabaseError Nat

namespace Attempt

def succeeded (a : Attempt) : Bool :=
  a.answer.isOk

def call (a : Attempt) : Call :=
  .execute .schema a.entry.1.dropSql

def failure? (a : Attempt) : Option (CatalogObject × DatabaseError) :=
  match a.answer with
  | .ok _ => none
  | .error cause => some (a.entry.1, cause)

theorem failure?_of_succeeded {a : Attempt} (h : a.succeeded = true) :
    a.failure? = none := by
  obtain ⟨entry, answer⟩ := a
  cases answer with
  | ok n => rfl
  | error cause => cases h

theorem failure?_of_failed {a : Attempt} (h : a.succeeded = false) :
    ∃ cause, a.answer = .error cause ∧ a.failure? = some (a.entry.1, cause) := by
  obtain ⟨entry, answer⟩ := a
  cases answer with
  | ok n => cases h
  | error cause => exact ⟨cause, rfl, rfl⟩

end Attempt

def failed (attempts : List Attempt) : List Attempt :=
  attempts.filter (!·.succeeded)

def dropped (attempts : List Attempt) (e : Entry) : Bool :=
  attempts.any fun a => a.entry == e && a.succeeded

def successes (attempts : List Attempt) (e : Entry) : Nat :=
  attempts.countP fun a => a.entry == e && a.succeeded

/-- The attempts are made one after the other, and the database answers them so. -/
inductive Made (db : Database σ) : σ → List Attempt → σ → Prop
  | nil (d : σ) : Made db d [] d
  | cons {d d₁ d₂ : σ} {a : Attempt} {rest : List Attempt}
      (h : db.step (.execute .schema a.entry.1.dropSql) d = (a.answer, d₁))
      (hrest : Made db d₁ rest d₂) : Made db d (a :: rest) d₂

theorem Made.append {db : Database σ} {d d₁ d₂ : σ} {front back : List Attempt}
    (hfront : Made db d front d₁) (hback : Made db d₁ back d₂) :
    Made db d (front ++ back) d₂ := by
  induction hfront with
  | nil => exact hback
  | cons h _ ih => exact .cons h (ih hback)

theorem dropEach_made (db : Database σ) (entries : List Entry) (s : Session σ) :
    ∃ pass s', pass.map Attempt.entry = entries ∧
      Made db s.database pass s'.database ∧
      (dropEach db (entries.map Prod.fst)).run s =
        (.ok (pass.filterMap Attempt.failure?), s') ∧
      ∀ calls, (dropEach db.recorded (entries.map Prod.fst)).run
          (s.recording calls) =
        (.ok (pass.filterMap Attempt.failure?),
          s'.recording (calls ++ pass.map Attempt.call)) := by
  induction entries generalizing s with
  | nil =>
      refine ⟨[], s, rfl, .nil _, rfl, fun calls => ?_⟩
      rw [List.map_nil, List.map_nil, List.append_nil]
      rfl
  | cons e entries ih =>
      cases hcall : s.call db (.execute .schema e.1.dropSql) with
      | mk answer s₁ =>
          have hstep := Session.step_of_call hcall
          have hrecord : ∀ calls,
              (s.recording calls).call db.recorded (.execute .schema e.1.dropSql) =
                (answer, s₁.recording (calls ++ [.execute .schema e.1.dropSql])) := by
            intro calls
            rw [Session.call_recording, hcall]
          cases answer with
          | ok n =>
              obtain ⟨pass, s₂, hentries, hmade, hrun, hrecorded⟩ :=
                ih (s₁.logged .info ("Dropped " ++ e.1.quotedName))
              refine ⟨⟨e, .ok n⟩ :: pass, s₂, congrArg (e :: ·) hentries,
                .cons hstep hmade, run_dropEach_of_ok hcall hrun, fun calls => ?_⟩
              rw [List.map_cons, run_dropEach_of_ok (hrecord calls) (hrecorded _),
                List.append_assoc]
              rfl
          | error cause =>
              obtain ⟨pass, s₂, hentries, hmade, hrun, hrecorded⟩ :=
                ih (s₁.logged .debug ("Deferring drop of " ++ e.1.quotedName
                  ++ ": " ++ cause.message))
              refine ⟨⟨e, .error cause⟩ :: pass, s₂, congrArg (e :: ·) hentries,
                .cons hstep hmade, run_dropEach_of_error hcall hrun, fun calls => ?_⟩
              rw [List.map_cons, run_dropEach_of_error (hrecord calls) (hrecorded _),
                List.append_assoc]
              rfl

/-- How passes over pending entries follow each other, and which attempts are the
last ones at entries that stay. A pass tries what is pending, and what failed is
pending in the next. The last pass is one in which nothing failed, or everything
did. -/
inductive Passes : List Entry → List (List Attempt) → List Attempt → Prop
  | last {entries : List Entry} {pass : List Attempt}
      (hentries : pass.map Attempt.entry = entries)
      (hend : failed pass = [] ∨ failed pass = pass) :
      Passes entries [pass] (failed pass)
  | more {entries : List Entry} {pass : List Attempt}
      {passes : List (List Attempt)} {left : List Attempt}
      (hentries : pass.map Attempt.entry = entries) (hfailed : failed pass ≠ [])
      (hless : (failed pass).length < pass.length)
      (hrest : Passes ((failed pass).map Attempt.entry) passes left) :
      Passes entries (pass :: passes) left

theorem failed_sublist (attempts : List Attempt) :
    (failed attempts).Sublist attempts :=
  List.filter_sublist

theorem filterMap_failed (attempts : List Attempt) :
    (failed attempts).filterMap Attempt.failure? =
      attempts.filterMap Attempt.failure? := by
  induction attempts with
  | nil => rfl
  | cons a attempts ih =>
      cases ha : a.succeeded with
      | true =>
          rw [failed, List.filter_cons_of_neg (by simp [ha]), ← failed, ih,
            List.filterMap_cons_none (Attempt.failure?_of_succeeded ha)]
      | false =>
          rw [failed, List.filter_cons_of_pos (by simp [ha]), ← failed,
            List.filterMap_cons, List.filterMap_cons, ih]

theorem map_fst_failures (attempts : List Attempt) :
    (attempts.filterMap Attempt.failure?).map Prod.fst =
      ((failed attempts).map Attempt.entry).map Prod.fst := by
  induction attempts with
  | nil => rfl
  | cons a attempts ih =>
      cases ha : a.succeeded with
      | true =>
          rw [List.filterMap_cons_none (Attempt.failure?_of_succeeded ha), ih,
            failed, failed, List.filter_cons_of_neg (by simp [ha])]
      | false =>
          obtain ⟨cause, -, hcause⟩ := Attempt.failure?_of_failed ha
          rw [List.filterMap_cons_some hcause, List.map_cons, ih, failed, failed,
            List.filter_cons_of_pos (by simp [ha]), List.map_cons, List.map_cons]

theorem length_failures (attempts : List Attempt) :
    (attempts.filterMap Attempt.failure?).length = (failed attempts).length := by
  have h := congrArg List.length (map_fst_failures attempts)
  rwa [List.length_map, List.length_map, List.length_map] at h

/-- The outcome, by the last attempts at the entries that stay. -/
def outcome (total : Nat) (left : List Attempt) : Except MigrationError Nat :=
  match left.filterMap Attempt.failure? with
  | [] => .ok total
  | (object, cause) :: _ => .error (.dropFailed object.dropSql cause)

@[simp] theorem outcome_nil (total : Nat) : outcome total [] = .ok total := rfl

theorem outcome_cons (total : Nat) {a : Attempt} (rest : List Attempt)
    (h : a.succeeded = false) :
    ∃ cause, a.answer = .error cause ∧
      outcome total (a :: rest) =
        .error (.dropFailed a.entry.1.dropSql cause) := by
  obtain ⟨cause, hanswer, hfailure⟩ := Attempt.failure?_of_failed h
  exact ⟨cause, hanswer, by rw [outcome, List.filterMap_cons_some hfailure]⟩

section Pass

variable {db : Database σ} {entries : List Entry} {pass : List Attempt}
  {s s' : Session σ}

theorem length_map_fst (hentries : pass.map Attempt.entry = entries) :
    (entries.map Prod.fst).length = pass.length := by
  rw [← hentries, List.length_map, List.length_map]

theorem run_dropPasses_of_last
    (hrun : (dropEach db (entries.map Prod.fst)).run s =
      (.ok (pass.filterMap Attempt.failure?), s'))
    (hentries : pass.map Attempt.entry = entries)
    (hend : failed pass = [] ∨ failed pass = pass) (dropped : Nat) :
    (dropPasses db (entries.map Prod.fst) dropped).run s =
      (outcome (dropped + entries.length) (failed pass), s') := by
  have hlength := length_map_fst hentries
  have hcount := length_failures pass
  rw [outcome, filterMap_failed]
  cases hfailures : pass.filterMap Attempt.failure? with
  | nil =>
      rw [hfailures] at hrun
      rw [run_dropPasses_of_nil hrun, List.length_map]
  | cons first rest =>
      rw [hfailures] at hrun hcount
      have hall : failed pass = pass := by
        refine hend.resolve_left fun hnone => ?_
        rw [hnone] at hcount
        cases hcount
      exact run_dropPasses_of_le hrun (by rw [hlength, hcount, hall]) dropped

theorem run_dropPasses_of_more
    (hrun : (dropEach db (entries.map Prod.fst)).run s =
      (.ok (pass.filterMap Attempt.failure?), s'))
    (hentries : pass.map Attempt.entry = entries) (hfailed : failed pass ≠ [])
    (hless : (failed pass).length < pass.length) (dropped : Nat) :
    (dropPasses db (entries.map Prod.fst) dropped).run s =
      (dropPasses db (((failed pass).map Attempt.entry).map Prod.fst)
        (dropped + (entries.length - (failed pass).length))).run s' := by
  have hlength := length_map_fst hentries
  have hcount := length_failures pass
  rw [← map_fst_failures]
  cases hfailures : pass.filterMap Attempt.failure? with
  | nil =>
      rw [hfailures] at hcount
      exact absurd (List.eq_nil_of_length_eq_zero hcount.symm) hfailed
  | cons first rest =>
      rw [hfailures] at hrun hcount
      rw [run_dropPasses_of_lt hrun (by omega), List.length_map, hcount]

end Pass

/-- By induction on the number of entries: a pass that is not the last one drops
some of them. -/
theorem dropPasses_made (db : Database σ) (entries : List Entry) (dropped : Nat)
    (s : Session σ) :
    ∃ passes left s', Passes entries passes left ∧
      Made db s.database passes.flatten s'.database ∧
      (dropPasses db (entries.map Prod.fst) dropped).run s =
        (outcome (dropped + entries.length) left, s') ∧
      ∀ calls, (dropPasses db.recorded (entries.map Prod.fst) dropped).run
          (s.recording calls) =
        (outcome (dropped + entries.length) left,
          s'.recording (calls ++ passes.flatten.map Attempt.call)) := by
  induction hlength : entries.length using Nat.strong_induction_on
    generalizing entries dropped s with
  | _ n ih =>
      subst hlength
      obtain ⟨pass, s₁, hentries, hmade, hrun, hrecorded⟩ :=
        dropEach_made db entries s
      by_cases hend : failed pass = [] ∨ failed pass = pass
      · refine ⟨[pass], failed pass, s₁, .last hentries hend, ?_,
          run_dropPasses_of_last hrun hentries hend dropped, fun calls => ?_⟩
        · rwa [List.flatten_singleton]
        · rw [List.flatten_singleton]
          exact run_dropPasses_of_last (hrecorded calls) hentries hend dropped
      · obtain ⟨hfailed, hnotall⟩ := not_or.1 hend
        have hless : (failed pass).length < pass.length :=
          Nat.lt_of_not_le fun hle =>
            hnotall ((failed_sublist pass).eq_of_length_le hle)
        have hpass : pass.length = entries.length := by
          rw [← hentries, List.length_map]
        have hpending : ((failed pass).map Attempt.entry).length =
            (failed pass).length := List.length_map _
        obtain ⟨passes, left, s₂, hpasses, hmade₂, hrun₂, hrecorded₂⟩ :=
          ih ((failed pass).map Attempt.entry).length (by omega) _
            (dropped + (entries.length - (failed pass).length)) s₁ rfl
        have htotal : dropped + (entries.length - (failed pass).length) +
            ((failed pass).map Attempt.entry).length =
            dropped + entries.length := by
          omega
        rw [htotal] at hrun₂ hrecorded₂
        refine ⟨pass :: passes, left, s₂, .more hentries hfailed hless hpasses,
          ?_, ?_, fun calls => ?_⟩
        · rw [List.flatten_cons]
          exact hmade.append hmade₂
        · rw [run_dropPasses_of_more hrun hentries hfailed hless, hrun₂]
        · rw [run_dropPasses_of_more (hrecorded calls) hentries hfailed hless,
            hrecorded₂, List.flatten_cons, List.map_append, List.append_assoc]

section Counting

theorem successes_append (front back : List Attempt) (e : Entry) :
    successes (front ++ back) e = successes front e + successes back e :=
  List.countP_append

theorem successes_of_not_mem {attempts : List Attempt} {e : Entry}
    (h : e ∉ attempts.map Attempt.entry) : successes attempts e = 0 := by
  refine List.countP_eq_zero.2 fun a ha hdrop => ?_
  rw [Bool.and_eq_true, beq_iff_eq] at hdrop
  exact h (List.mem_map.2 ⟨a, ha, hdrop.1⟩)

variable {pass : List Attempt} {a : Attempt}

theorem successes_pass (hnodup : (pass.map Attempt.entry).Nodup) (ha : a ∈ pass) :
    successes pass a.entry = if a.succeeded then 1 else 0 := by
  induction pass with
  | nil => cases ha
  | cons b pass ih =>
      rw [List.map_cons, List.nodup_cons] at hnodup
      rw [successes, List.countP_cons, ← successes]
      rcases List.mem_cons.1 ha with rfl | ha
      · rw [successes_of_not_mem hnodup.1, beq_self_eq_true, Bool.true_and,
          Nat.zero_add]
      · have hne : b.entry ≠ a.entry := by
          intro heq
          exact hnodup.1 (heq ▸ List.mem_map_of_mem ha)
        rw [ih hnodup.2 ha, beq_eq_false_iff_ne.2 hne, Bool.false_and]
        rfl

theorem dropped_entry (hnodup : (pass.map Attempt.entry).Nodup) (ha : a ∈ pass) :
    dropped pass a.entry = a.succeeded := by
  rw [Bool.eq_iff_iff, dropped, List.any_eq_true]
  constructor
  · rintro ⟨b, hb, hdrop⟩
    rw [Bool.and_eq_true, beq_iff_eq] at hdrop
    rw [← List.inj_on_of_nodup_map hnodup hb ha hdrop.1]
    exact hdrop.2
  · intro hsucceeded
    exact ⟨a, ha, by rw [beq_self_eq_true, hsucceeded]; rfl⟩

theorem map_entry_failed (hnodup : (pass.map Attempt.entry).Nodup) :
    (failed pass).map Attempt.entry =
      (pass.map Attempt.entry).filter (!dropped pass ·) := by
  rw [List.filter_map, failed]
  congr 1
  refine List.filter_congr fun a ha => ?_
  rw [Function.comp_apply, dropped_entry hnodup ha]

theorem mem_map_entry_failed (hnodup : (pass.map Attempt.entry).Nodup)
    (ha : a ∈ pass) :
    a.entry ∈ (failed pass).map Attempt.entry ↔ a.succeeded = false := by
  rw [map_entry_failed hnodup, List.mem_filter, dropped_entry hnodup ha,
    Bool.not_eq_true']
  exact and_iff_right (List.mem_map_of_mem ha)

end Counting

namespace Passes

variable {entries : List Entry} {passes : List (List Attempt)} {left : List Attempt}

theorem entry_mem (h : Passes entries passes left) :
    ∀ a ∈ passes.flatten, a.entry ∈ entries := by
  induction h with
  | @last entries pass hentries _ =>
      intro a ha
      rw [List.flatten_singleton] at ha
      exact hentries ▸ List.mem_map_of_mem ha
  | @more entries pass passes left hentries _ _ _ ih =>
      intro a ha
      rw [List.flatten_cons, List.mem_append] at ha
      rcases ha with ha | ha
      · exact hentries ▸ List.mem_map_of_mem ha
      · obtain ⟨b, hb, heq⟩ := List.mem_map.1 (ih a ha)
        rw [← heq, ← hentries]
        exact List.mem_map_of_mem (List.mem_of_mem_filter hb)

theorem left_eq (h : Passes entries passes left) : left = [] ∨
    ∃ front, passes = front ++ [left] ∧ ∀ a ∈ left, a.succeeded = false := by
  induction h with
  | @last entries pass _ hend =>
      refine hend.imp_right fun hall => ⟨[], by rw [hall]; rfl, fun a ha => ?_⟩
      simpa using (List.mem_filter.1 ha).2
  | @more entries pass passes left _ _ _ _ ih =>
      refine ih.imp_right ?_
      rintro ⟨front, hpasses, hfailed⟩
      exact ⟨pass :: front, by rw [hpasses]; rfl, hfailed⟩

/-- What is left in the end are the attempts of the last pass, which all failed, and
the outcome is the first of their faults. -/
theorem exists_fault {first : Attempt} {rest : List Attempt}
    (h : Passes entries passes (first :: rest)) (total : Nat) :
    ∃ front cause, passes = front ++ [first :: rest] ∧
      (∀ a ∈ first :: rest, a.succeeded = false) ∧ first.answer = .error cause ∧
      outcome total (first :: rest) =
        .error (.dropFailed first.entry.1.dropSql cause) := by
  obtain ⟨front, hlast, hfailed⟩ := h.left_eq.resolve_left nofun
  obtain ⟨cause, hcause, hout⟩ := outcome_cons total rest (hfailed first List.mem_cons_self)
  exact ⟨front, cause, hlast, hfailed, hcause, hout⟩

theorem left_subset (h : Passes entries passes left) : left ⊆ passes.flatten := by
  rcases h.left_eq with rfl | ⟨front, rfl, -⟩
  · exact List.nil_subset _
  · rw [List.flatten_append, List.flatten_singleton]
    exact List.subset_append_right _ _

/-- Every pass but the first has fewer attempts than the one before. -/
theorem length_le (h : Passes entries passes left) :
    2 * passes.flatten.length ≤ entries.length * (entries.length + 1) := by
  induction h with
  | @last entries pass hentries _ =>
      rw [List.flatten_singleton, ← hentries, List.length_map]
      nlinarith [Nat.le_mul_self pass.length]
  | @more entries pass passes left hentries _ hless _ ih =>
      rw [List.length_map] at ih
      rw [List.flatten_cons, List.length_append, ← hentries, List.length_map]
      have hrest := Nat.mul_le_mul hless (Nat.succ_le_succ hless.le)
      nlinarith

/-- A pass tries what the passes before have not dropped, in the order of the
entries. -/
theorem map_entry_pass (h : Passes entries passes left) (hnodup : entries.Nodup)
    {front back : List (List Attempt)} {pass : List Attempt}
    (hpasses : passes = front ++ pass :: back) :
    pass.map Attempt.entry = entries.filter (!dropped front.flatten ·) := by
  induction h generalizing front with
  | @last entries first hentries _ =>
      cases front with
      | nil =>
          obtain ⟨rfl, -⟩ := List.cons.inj hpasses
          rw [hentries, List.flatten_nil]
          exact (List.filter_eq_self.2 fun _ _ => rfl).symm
      | cons _ front =>
          have hnil := (List.cons.inj hpasses).2
          exact absurd hnil.symm (by simp)
  | @more entries first passes left hentries _ _ _ ih =>
      cases front with
      | nil =>
          obtain ⟨rfl, -⟩ := List.cons.inj hpasses
          rw [hentries, List.flatten_nil]
          exact (List.filter_eq_self.2 fun _ _ => rfl).symm
      | cons _ front =>
          obtain ⟨rfl, hrest⟩ := List.cons.inj hpasses
          subst hentries
          have hpending := map_entry_failed hnodup
          rw [ih (hpending ▸ hnodup.filter _) hrest, hpending, List.filter_filter,
            List.flatten_cons]
          refine List.filter_congr fun e _ => ?_
          rw [dropped, dropped, dropped, List.any_append, Bool.not_or,
            Bool.and_comm]

theorem successes_eq (h : Passes entries passes left) (hnodup : entries.Nodup)
    {e : Entry} (he : e ∈ entries) :
    successes passes.flatten e = if e ∈ left.map Attempt.entry then 0 else 1 := by
  induction h with
  | @last entries pass hentries _ =>
      subst hentries
      obtain ⟨a, ha, rfl⟩ := List.mem_map.1 he
      have hstays := mem_map_entry_failed hnodup ha
      rw [List.flatten_singleton, successes_pass hnodup ha]
      cases hsucceeded : a.succeeded with
      | false => rw [if_pos (hstays.2 hsucceeded), if_neg nofun]
      | true =>
          rw [if_neg (mt hstays.1 (by rw [hsucceeded]; nofun)), if_pos rfl]
  | @more entries pass passes left hentries _ _ hrest ih =>
      subst hentries
      obtain ⟨a, ha, rfl⟩ := List.mem_map.1 he
      have hpending := mem_map_entry_failed hnodup ha
      rw [List.flatten_cons, successes_append, successes_pass hnodup ha]
      cases hsucceeded : a.succeeded with
      | false =>
          have hnodup' := map_entry_failed hnodup ▸ hnodup.filter _
          rw [ih hnodup' (hpending.2 hsucceeded), if_neg nofun, Nat.zero_add]
      | true =>
          -- What has been dropped is not pending, so it is not tried again.
          have hgone : a.entry ∉ passes.flatten.map Attempt.entry := by
            intro hagain
            obtain ⟨b, hb, heq⟩ := List.mem_map.1 hagain
            have hfalse := hpending.1 (heq ▸ hrest.entry_mem b hb)
            rw [hsucceeded] at hfalse
            cases hfalse
          rw [successes_of_not_mem hgone, if_pos rfl, if_neg]
          exact fun hleft => hgone (List.map_subset _ hrest.left_subset hleft)

end Passes

/-- Whatever the database does, dropping everything tries, in each pass, the entries
of the listing that have not been dropped before, in order and each once. There are
at most `n * (n + 1) / 2` attempts at `n` entries. If the outcome is a number, it is
that of the entries, and each was dropped once; if it is a fault, it is the first one
of a last pass in which every attempt failed, and each entry that was not tried there
was dropped once. -/
theorem dropAll_accounts {db : Database σ} {s : Session σ}
    {listing : List CatalogObject} {d : σ}
    (hlist : db.step .listObjects s.database = (.ok listing, d)) :
    let r := (dropAll db).run s
    let entries := listing.zipIdx
    ∃ passes : List (List Attempt),
      Made db d passes.flatten r.2.database ∧
      (∀ calls, ((dropAll db.recorded).run (s.recording calls)).2.database =
        (r.2.database,
          calls ++ .listObjects :: passes.flatten.map Attempt.call)) ∧
      (∀ a ∈ passes.flatten, a.entry ∈ entries) ∧
      passes.flatten.length ≤ listing.length * (listing.length + 1) / 2 ∧
      (∀ front pass back, passes = front ++ pass :: back →
        pass.map Attempt.entry = entries.filter (!dropped front.flatten ·)) ∧
      (∀ k, r.1 = .ok k →
        k = listing.length ∧ ∀ e ∈ entries, successes passes.flatten e = 1) ∧
      ∀ fault, r.1 = .error fault → ∃ front first rest cause,
        passes = front ++ [first :: rest] ∧
        (∀ a ∈ first :: rest, a.succeeded = false) ∧
        first.answer = .error cause ∧
        fault = .dropFailed first.entry.1.dropSql cause ∧
        ∀ e ∈ entries, successes passes.flatten e =
          if e ∈ (first :: rest).map Attempt.entry then 0 else 1 := by
  intro r entries
  obtain ⟨s₁, hcall, hs₁⟩ := Session.call_of_step hlist
  obtain ⟨passes, left, s₂, hpasses, hmade, hrun, hrecorded⟩ :=
    dropPasses_made db entries 0 s₁
  have hobjects : entries.map Prod.fst = listing := List.zipIdx_map_fst 0 listing
  have hlength : 0 + entries.length = listing.length := by
    rw [Nat.zero_add, List.length_zipIdx]
  have hnodup : entries.Nodup := List.Nodup.of_map Prod.snd
    (by rw [List.zipIdx_map_snd]; exact List.nodup_range')
  rw [hobjects, hlength] at hrun hrecorded
  have hr : r = (outcome listing.length left, s₂) :=
    (Action.run_call_bind_of_ok hcall _ _).trans hrun
  refine ⟨passes, ?_, fun calls => ?_, hpasses.entry_mem, ?_,
    fun _ _ _ => hpasses.map_entry_pass hnodup, fun k hk => ?_, fun fault hfault => ?_⟩
  · rw [hr, ← hs₁]
    exact hmade
  · have hcall' : (s.recording calls).call db.recorded .listObjects =
        (.ok listing, s₁.recording (calls ++ [.listObjects])) := by
      rw [Session.call_recording, hcall]
    have hr' : (dropAll db.recorded).run (s.recording calls) = _ :=
      (Action.run_call_bind_of_ok hcall' _ _).trans (hrecorded _)
    rw [hr, hr', List.append_assoc]
    rfl
  · have hle := hpasses.length_le
    rw [List.length_zipIdx] at hle
    omega
  · rw [hr] at hk
    cases left with
    | nil =>
        refine ⟨(Except.ok.inj hk).symm, fun e he => ?_⟩
        rw [hpasses.successes_eq hnodup he, if_neg (by simp)]
    | cons first rest =>
        obtain ⟨_, _, -, -, -, hout⟩ := hpasses.exists_fault listing.length
        rw [hout] at hk
        cases hk
  · rw [hr] at hfault
    cases left with
    | nil => cases hfault
    | cons first rest =>
        obtain ⟨front, cause, hlast, hfailed, hcause, hout⟩ :=
          hpasses.exists_fault listing.length
        rw [hout] at hfault
        exact ⟨front, first, rest, cause, hlast, hfailed, hcause,
          (Except.error.inj hfault).symm, fun e he => hpasses.successes_eq hnodup he⟩

/-- A database that always lists the same objects and refuses every other
statement. -/
def moody (listing : List CatalogObject) : Database Nat where
  name := "moody"
  step
    | .listObjects, n => (.ok listing, n)
    | .execute _ sql, n =>
      (if n % 2 = 0 then .error (.execution sql "busy") else .ok 0, n + 1)
    | _, n => (.error .closed, n)

/-- Three entries, two of the same object. They take six attempts, which is as many
as there can be. -/
theorem dropAll_accounts_of_moody :
    let t : CatalogObject := ⟨"main", "t", .table⟩
    let v : CatalogObject := ⟨"main", "v", .view⟩
    let db := moody [t, t, v]
    let s : Session Nat := { database := 0 }
    let r := (dropAll db).run s
    db.step .listObjects s.database = (.ok [t, t, v], 0) ∧
      r.1 = .ok 3 ∧ r.2.database = 3 * (3 + 1) / 2 ∧
      ∃ passes : List (List Attempt),
        Made db 0 passes.flatten r.2.database ∧ passes.flatten.length ≤ 6 ∧
        ∀ e ∈ [(t, 0), (t, 1), (v, 2)], successes passes.flatten e = 1 := by
  intro t v db s r
  have hanswer : r.1.toOption = some 3 := by decide +kernel
  have hdropped : r.1 = .ok 3 := by
    cases hr : r.1 with
    | ok k =>
        rw [hr] at hanswer
        exact congrArg _ (Option.some.inj hanswer)
    | error fault =>
        rw [hr] at hanswer
        cases hanswer
  have hlist : db.step .listObjects s.database = (.ok [t, t, v], 0) := rfl
  obtain ⟨passes, hmade, -, -, hlength, -, hok, -⟩ := dropAll_accounts hlist
  exact ⟨hlist, hdropped, by decide +kernel, passes, hmade,
    hlength.trans (by decide), (hok 3 hdropped).2⟩

end VersionStore

end SchemaLedger
