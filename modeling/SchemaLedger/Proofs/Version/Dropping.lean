import Mathlib.Data.Finset.Dedup
import Mathlib.Data.Fintype.EquivFin
import Mathlib.Logic.Relation
import Mathlib.Order.Bounds.Basic
import Mathlib.Order.WellFounded
import SchemaLedger.Proofs.Driver.Actions
import SchemaLedger.Proofs.Sql.Quoting
import SchemaLedger.Version.Store
/-!
# Dropping everything

Objects are dropped in passes over a list. An object can be dropped as soon as
nothing that is still there depends on it, so what can be dropped changes while a
pass is under way, and the order of the list decides in which pass an object goes.
What stays in the end does not depend on the order: it is the greatest set of
objects each of which has a dependent in the set, `Held` being the property of
such sets.

Two facts carry the passes. A held set never loses an object, since each of its
objects has a dependent that is still there. And after a pass that dropped nothing,
all that is there is held.
-/

namespace SchemaLedger

variable {σ : Type}

/-- Each of the objects has a dependent among them. `depends p o` says that `p`
cannot do without `o`. -/
def Held (depends : CatalogObject → CatalogObject → Prop)
    (objects : Finset CatalogObject) : Prop :=
  ∀ o ∈ objects, ∃ p ∈ objects, depends p o

/-- No object depends on itself, be it through others of the objects. -/
def Acyclic (depends : CatalogObject → CatalogObject → Prop)
    (objects : Finset CatalogObject) : Prop :=
  ∀ o, ¬ Relation.TransGen
    (fun p q => p ∈ objects ∧ q ∈ objects ∧ depends p q) o o

theorem Held.eq_empty {depends : CatalogObject → CatalogObject → Prop}
    {objects all : Finset CatalogObject} (hheld : Held depends objects)
    (hsub : objects ⊆ all) (hacyclic : Acyclic depends all) : objects = ∅ := by
  by_contra hne
  obtain ⟨first, hfirst⟩ := Finset.nonempty_iff_ne_empty.2 hne
  let needs : objects → objects → Prop := fun p q =>
    Relation.TransGen (fun p q => p ∈ all ∧ q ∈ all ∧ depends p q) p.1 q.1
  have : IsTrans objects needs := ⟨fun _ _ _ => Relation.TransGen.trans⟩
  have : Std.Irrefl needs := ⟨fun p => hacyclic p.1⟩
  -- An object that nothing leads to has no dependent.
  obtain ⟨o, -, hmin⟩ := (Finite.wellFounded_of_trans_of_irrefl needs).has_min
    Set.univ ⟨⟨first, hfirst⟩, trivial⟩
  obtain ⟨p, hp, hdepends⟩ := hheld o.1 o.2
  exact hmin ⟨p, hp⟩ trivial (.single ⟨hsub hp, hsub o.2, hdepends⟩)

/-- An object can be dropped if and only if nothing that is present depends on it,
and then nothing else goes with it. -/
structure Releases (db : Database σ)
    (depends : CatalogObject → CatalogObject → Prop)
    (present : σ → Finset CatalogObject) : Prop where
  drop (o : CatalogObject) (d : σ) : o ∈ present d →
    match db.step (.execute .schema o.dropSql) d with
    | (.ok _, d') =>
      (∀ p ∈ present d, ¬ depends p o) ∧ present d' = (present d).erase o
    | (.error _, d') => (∃ p ∈ present d, depends p o) ∧ present d' = present d

/-- A schema is named as the schema it is in. -/
def CatalogObject.WellNamed (o : CatalogObject) : Prop :=
  o.kind = .schema → o.schema = o.name

instance : DecidablePred CatalogObject.WellNamed := fun o =>
  inferInstanceAs (Decidable (o.kind = .schema → o.schema = o.name))

theorem CatalogObject.WellNamed.eq_of_dropSql_eq {a b : CatalogObject}
    (ha : a.WellNamed) (hb : b.WellNamed) (h : a.dropSql = b.dropSql) :
    a = b := by
  obtain ⟨hkind, hname, hschema⟩ := CatalogObject.eq_of_dropSql_eq h
  have hschemas : a.schema = b.schema := by
    by_cases hk : a.kind = .schema
    · rw [ha hk, hb (hkind ▸ hk), hname]
    · exact hschema hk
  obtain ⟨_, _, _⟩ := a
  obtain ⟨_, _, _⟩ := b
  simp_all

/-- Objects that can be listed and dropped, and nothing else. -/
structure Shelf where
  objects : List CatalogObject
  wellNamed : ∀ o ∈ objects, o.WellNamed

namespace Shelf

def drop (s : Shelf) (sql : String) : Shelf where
  objects := s.objects.filter (·.dropSql ≠ sql)
  wellNamed o ho := s.wellNamed o (List.mem_of_mem_filter ho)

def isNeeded (depends : CatalogObject → CatalogObject → Bool) (s : Shelf)
    (sql : String) : Bool :=
  s.objects.any fun o => o.dropSql = sql && s.objects.any (depends · o)

def database (depends : CatalogObject → CatalogObject → Bool) :
    Database Shelf where
  name := "shelf"
  step
    | .listObjects, s => (.ok s.objects, s)
    | .execute .schema sql, s =>
      if s.isNeeded depends sql then (.error (.execution sql "needed"), s)
      else (.ok 0, s.drop sql)
    | _, s => (.error (.execution "" "refused"), s)

variable {depends : CatalogObject → CatalogObject → Bool} {s : Shelf}

theorem isNeeded_iff {o : CatalogObject} (ho : o ∈ s.objects) :
    s.isNeeded depends o.dropSql = true ↔ ∃ p ∈ s.objects, depends p o := by
  rw [isNeeded, List.any_eq_true]
  constructor
  · rintro ⟨q, hq, h⟩
    rw [Bool.and_eq_true, decide_eq_true_iff, List.any_eq_true] at h
    have hqo := (s.wellNamed q hq).eq_of_dropSql_eq (s.wellNamed o ho) h.1
    exact hqo ▸ h.2
  · intro h
    refine ⟨o, ho, ?_⟩
    rw [Bool.and_eq_true, decide_eq_true_iff, List.any_eq_true]
    exact ⟨rfl, h⟩

theorem toFinset_drop {o : CatalogObject} (ho : o ∈ s.objects) :
    (s.drop o.dropSql).objects.toFinset = s.objects.toFinset.erase o := by
  ext p
  rw [drop, Finset.mem_erase, List.mem_toFinset, List.mem_toFinset,
    List.mem_filter, and_comm]
  refine and_congr_left fun hp => ?_
  rw [decide_eq_true_iff]
  constructor
  · exact fun hsql heq => hsql (heq ▸ rfl)
  · exact fun hne hsql =>
      hne ((s.wellNamed p hp).eq_of_dropSql_eq (s.wellNamed o ho) hsql)

theorem releases (depends : CatalogObject → CatalogObject → Bool) :
    Releases (database depends) (fun p o => depends p o = true)
      (·.objects.toFinset) where
  drop o s ho := by
    rw [List.mem_toFinset] at ho
    simp only [database, List.mem_toFinset]
    by_cases hneeded : s.isNeeded depends o.dropSql = true
    · rw [if_pos hneeded]
      exact ⟨(isNeeded_iff ho).1 hneeded, rfl⟩
    · rw [if_neg hneeded]
      refine ⟨fun p hp hdepends => ?_, toFinset_drop ho⟩
      exact hneeded ((isNeeded_iff ho).2 ⟨p, hp, hdepends⟩)

end Shelf

namespace VersionStore

theorem run_dropEach_of_ok {db : Database σ} {o : CatalogObject}
    {rest : List CatalogObject} {s s₁ s₂ : Session σ} {n : Nat}
    {failures : List (CatalogObject × DatabaseError)}
    (hcall : s.call db (.execute .schema o.dropSql) = (.ok n, s₁))
    (hrest : (dropEach db rest).run
      (s₁.logged .info ("Dropped " ++ o.quotedName)) = (.ok failures, s₂)) :
    (dropEach db (o :: rest)).run s = (.ok failures, s₂) := by
  rw [dropEach]
  refine (Action.run_bind_of_ok (a := none) ?_ _).trans
    (Action.run_bind_of_ok hrest _)
  simp only [Action.run, ExceptT.run_mk, StateT.run]
  rw [hcall]

theorem run_dropEach_of_error {db : Database σ} {o : CatalogObject}
    {rest : List CatalogObject} {s s₁ s₂ : Session σ} {cause : DatabaseError}
    {failures : List (CatalogObject × DatabaseError)}
    (hcall : s.call db (.execute .schema o.dropSql) = (.error cause, s₁))
    (hrest : (dropEach db rest).run (s₁.logged .debug ("Deferring drop of "
      ++ o.quotedName ++ ": " ++ cause.message)) = (.ok failures, s₂)) :
    (dropEach db (o :: rest)).run s = (.ok ((o, cause) :: failures), s₂) := by
  rw [dropEach]
  refine (Action.run_bind_of_ok (a := some cause) ?_ _).trans
    (Action.run_bind_of_ok hrest _)
  simp only [Action.run, ExceptT.run_mk, StateT.run]
  rw [hcall]

/-- What a pass over a list has done, from one state of the database to another. -/
structure Passed (db : Database σ)
    (depends : CatalogObject → CatalogObject → Prop)
    (present : σ → Finset CatalogObject) (pending : List CatalogObject)
    (failures : List (CatalogObject × DatabaseError)) (d d' : σ) : Prop where
  shrinks : present d' ⊆ present d
  keeps : ∀ o ∈ present d, o ∉ pending → o ∈ present d'
  /-- The failures are those of the objects that are still there, in order. -/
  deferred : failures.map Prod.fst = pending.filter (· ∈ present d')
  causes : ∀ f ∈ failures, ∃ e, present d' ⊆ present e ∧
    present e ⊆ present d ∧ f.1 ∈ present e ∧
    (db.step (.execute .schema f.1.dropSql) e).1 = .error f.2
  held : ∀ objects ⊆ present d, Held depends objects → objects ⊆ present d'

variable {db : Database σ} {depends : CatalogObject → CatalogObject → Prop}
  {present : σ → Finset CatalogObject}

theorem passed_nil (d : σ) : Passed db depends present [] [] d d where
  shrinks := Finset.Subset.refl _
  keeps _ ho _ := ho
  deferred := rfl
  causes _ hf := absurd hf List.not_mem_nil
  held _ hsub _ := hsub

theorem Passed.cons_of_dropped {o : CatalogObject} {rest : List CatalogObject}
    {failures : List (CatalogObject × DatabaseError)} {d d₁ d₂ : σ}
    (h : Passed db depends present rest failures d₁ d₂)
    (hfree : ∀ p ∈ present d, ¬ depends p o)
    (hd₁ : present d₁ = (present d).erase o) :
    Passed db depends present (o :: rest) failures d d₂ := by
  have hsub : present d₁ ⊆ present d := hd₁ ▸ Finset.erase_subset o _
  have hgone : o ∉ present d₂ := by
    intro ho
    have hmem := h.shrinks ho
    rw [hd₁] at hmem
    exact Finset.notMem_erase o _ hmem
  constructor
  · exact h.shrinks.trans hsub
  · intro p hp hnot
    rw [List.mem_cons, not_or] at hnot
    refine h.keeps p ?_ hnot.2
    rw [hd₁]
    exact Finset.mem_erase.2 ⟨hnot.1, hp⟩
  · rw [h.deferred, List.filter_cons_of_neg (by simpa using hgone)]
  · intro f hf
    obtain ⟨e, hle, hge, hmem, hcause⟩ := h.causes f hf
    exact ⟨e, hle, hge.trans hsub, hmem, hcause⟩
  · intro objects hobjects hheld
    refine h.held objects ?_ hheld
    rw [hd₁, Finset.subset_erase]
    refine ⟨hobjects, fun ho => ?_⟩
    obtain ⟨p, hp, hdepends⟩ := hheld o ho
    exact hfree p (hobjects hp) hdepends

theorem Passed.cons_of_failed {o : CatalogObject} {rest : List CatalogObject}
    {failures : List (CatalogObject × DatabaseError)} {d d₁ d₂ : σ}
    {cause : DatabaseError}
    (h : Passed db depends present rest failures d₁ d₂) (ho : o ∈ present d)
    (hrest : o ∉ rest) (hd₁ : present d₁ = present d)
    (hcause : (db.step (.execute .schema o.dropSql) d).1 = .error cause) :
    Passed db depends present (o :: rest) ((o, cause) :: failures) d d₂ := by
  have hstays : o ∈ present d₂ := h.keeps o (hd₁ ▸ ho) hrest
  have hshrinks : present d₂ ⊆ present d := hd₁ ▸ h.shrinks
  constructor
  · exact hshrinks
  · intro p hp hnot
    rw [List.mem_cons, not_or] at hnot
    exact h.keeps p (hd₁ ▸ hp) hnot.2
  · rw [List.map_cons, h.deferred, List.filter_cons_of_pos (by simpa using hstays)]
  · intro f hf
    rcases List.mem_cons.1 hf with rfl | hf
    · exact ⟨d, hshrinks, Finset.Subset.refl _, ho, hcause⟩
    · rw [← hd₁]
      exact h.causes f hf
  · intro objects hobjects hheld
    exact h.held objects (hd₁ ▸ hobjects) hheld

theorem dropEach_passed (hdb : Releases db depends present)
    {pending : List CatalogObject} (hnodup : pending.Nodup) (s : Session σ)
    (hpending : ∀ o ∈ pending, o ∈ present s.database) :
    ∃ failures s', (dropEach db pending).run s = (.ok failures, s') ∧
      Passed db depends present pending failures s.database s'.database := by
  induction pending generalizing s with
  | nil => exact ⟨[], s, rfl, passed_nil s.database⟩
  | cons o rest ih =>
      obtain ⟨hrest, hnodup⟩ := List.nodup_cons.1 hnodup
      have ho := hpending o List.mem_cons_self
      have hdrop := hdb.drop o s.database ho
      cases hcall : s.call db (.execute .schema o.dropSql) with
      | mk answer s₁ =>
          have hstep := Session.step_of_call hcall
          rw [hstep] at hdrop
          cases answer with
          | ok n =>
              obtain ⟨hfree, hd₁⟩ := hdrop
              obtain ⟨failures, s₂, hrun, hpassed⟩ := ih hnodup
                (s₁.logged .info ("Dropped " ++ o.quotedName)) (by
                  intro p hp
                  rw [Session.database_logged, hd₁]
                  refine Finset.mem_erase.2
                    ⟨?_, hpending p (List.mem_cons_of_mem o hp)⟩
                  exact fun heq => hrest (heq ▸ hp))
              exact ⟨failures, s₂, run_dropEach_of_ok hcall hrun,
                hpassed.cons_of_dropped hfree hd₁⟩
          | error cause =>
              obtain ⟨-, hd₁⟩ := hdrop
              obtain ⟨failures, s₂, hrun, hpassed⟩ := ih hnodup
                (s₁.logged .debug ("Deferring drop of " ++ o.quotedName ++ ": "
                  ++ cause.message)) (by
                  intro p hp
                  rw [Session.database_logged, hd₁]
                  exact hpending p (List.mem_cons_of_mem o hp))
              exact ⟨(o, cause) :: failures, s₂,
                run_dropEach_of_error hcall hrun,
                hpassed.cons_of_failed ho hrest hd₁ (by rw [hstep])⟩

theorem Passed.present_eq {pending : List CatalogObject}
    {failures : List (CatalogObject × DatabaseError)} {d d' : σ}
    (h : Passed db depends present pending failures d d')
    (hd : present d = pending.toFinset) :
    present d' = (failures.map Prod.fst).toFinset := by
  ext o
  rw [h.deferred, List.mem_toFinset, List.mem_filter, decide_eq_true_iff]
  constructor
  · intro ho
    have hmem := h.shrinks ho
    rw [hd, List.mem_toFinset] at hmem
    exact ⟨hmem, ho⟩
  · exact And.right

/-- After a pass that dropped nothing, all that is there is held. -/
theorem Passed.held_of_length_le (hdb : Releases db depends present)
    {pending : List CatalogObject}
    {failures : List (CatalogObject × DatabaseError)} {d d' : σ}
    (h : Passed db depends present pending failures d d')
    (hd : present d = pending.toFinset)
    (hlength : pending.length ≤ failures.length) :
    present d' = present d ∧ Held depends (present d') := by
  have hall : pending.filter (· ∈ present d') = pending := by
    refine List.filter_eq_self.2 (List.length_filter_eq_length_iff.1 ?_)
    have hle := List.length_filter_le (fun o => decide (o ∈ present d')) pending
    have hmap := congrArg List.length h.deferred
    rw [List.length_map] at hmap
    omega
  have hsame : present d' = present d := by
    rw [h.present_eq hd, h.deferred, hall, hd]
  refine ⟨hsame, fun o ho => ?_⟩
  have hmem : o ∈ failures.map Prod.fst := by
    rw [h.deferred, hall, ← List.mem_toFinset, ← hd, ← hsame]
    exact ho
  obtain ⟨f, hf, rfl⟩ := List.mem_map.1 hmem
  obtain ⟨e, hle, hge, hfe, hcause⟩ := h.causes f hf
  have hdrop := hdb.drop f.1 e hfe
  -- Nothing was there at the time that is not there now.
  have he : present e = present d' :=
    Finset.Subset.antisymm (hsame ▸ hge) hle
  cases hstep : db.step (.execute .schema f.1.dropSql) e with
  | mk answer e' =>
      rw [hstep] at hcause hdrop
      cases answer with
      | ok n => cases hcause
      | error cause => exact he ▸ hdrop.1

/-- How dropping a list of objects ends. -/
structure Ended (db : Database σ)
    (depends : CatalogObject → CatalogObject → Prop)
    (present : σ → Finset CatalogObject) (pending : List CatalogObject)
    (total : Nat) (result : Except MigrationError Nat)
    (left : Finset CatalogObject) : Prop where
  greatest : IsGreatest
    {objects | objects ⊆ pending.toFinset ∧ Held depends objects} left
  ok : left = ∅ → result = .ok total
  fault : ∀ o, pending.find? (· ∈ left) = some o → ∃ cause e,
    present e = left ∧
    (db.step (.execute .schema o.dropSql) e).1 = .error cause ∧
    result = .error (.dropFailed o.dropSql cause)

theorem Ended.of_passed {pending : List CatalogObject}
    {failures : List (CatalogObject × DatabaseError)} {d d' : σ}
    (h : Passed db depends present pending failures d d')
    (hd : present d = pending.toFinset) {total : Nat}
    {result : Except MigrationError Nat} {left : Finset CatalogObject}
    (hend : Ended db depends present (failures.map Prod.fst) total result left) :
    Ended db depends present pending total result left := by
  have hpresent := h.present_eq hd
  have hleft : left ⊆ present d' := hpresent ▸ hend.greatest.1.1
  constructor
  · constructor
    · refine ⟨?_, hend.greatest.1.2⟩
      rw [← hd]
      exact hleft.trans h.shrinks
    · intro objects hobjects
      refine hend.greatest.2 ⟨?_, hobjects.2⟩
      rw [← hpresent]
      exact h.held objects (hd ▸ hobjects.1) hobjects.2
  · exact hend.ok
  · intro o ho
    refine hend.fault o ?_
    rw [h.deferred, List.find?_filter, ← ho]
    congr 1
    funext p
    by_cases hp : p ∈ left
    · simp [hp, hleft hp]
    · simp [hp]

theorem Passed.ended_of_nil {pending : List CatalogObject} {d d' : σ}
    (h : Passed db depends present pending [] d d')
    (hd : present d = pending.toFinset) (total : Nat) :
    Ended db depends present pending total (.ok total) (present d') := by
  have hnone : present d' = ∅ := h.present_eq hd
  constructor
  · constructor
    · rw [hnone]
      exact ⟨Finset.empty_subset _, nofun⟩
    · intro objects hobjects
      exact h.held objects (hd ▸ hobjects.1) hobjects.2
  · exact fun _ => rfl
  · intro o ho
    have hmem := List.find?_some ho
    simp [hnone] at hmem

theorem Passed.ended_of_length_le (hdb : Releases db depends present)
    {pending : List CatalogObject} {o : CatalogObject} {cause : DatabaseError}
    {rest : List (CatalogObject × DatabaseError)} {d d' : σ}
    (h : Passed db depends present pending ((o, cause) :: rest) d d')
    (hd : present d = pending.toFinset)
    (hlength : pending.length ≤ ((o, cause) :: rest).length) (total : Nat) :
    Ended db depends present pending total (.error (.dropFailed o.dropSql cause))
      (present d') := by
  obtain ⟨hsame, hheld⟩ := h.held_of_length_le hdb hd hlength
  have hfirst : pending.find? (· ∈ present d') = some o := by
    rw [← List.head?_filter, ← h.deferred]
    rfl
  constructor
  · constructor
    · exact ⟨hd ▸ h.shrinks, hheld⟩
    · intro objects hobjects
      exact h.held objects (hd ▸ hobjects.1) hobjects.2
  · intro hnone
    have hmem := List.find?_some hfirst
    simp [hnone] at hmem
  · intro p hp
    obtain rfl : o = p := Option.some.inj (hfirst ▸ hp)
    obtain ⟨e, hle, hge, -, hcause⟩ := h.causes (o, cause) List.mem_cons_self
    exact ⟨cause, e, Finset.Subset.antisymm (hsame ▸ hge) hle, hcause, rfl⟩

theorem run_dropPasses_of_nil {pending : List CatalogObject} {s s' : Session σ}
    (h : (dropEach db pending).run s = (.ok [], s')) (dropped : Nat) :
    (dropPasses db pending dropped).run s =
      (.ok (dropped + pending.length), s') := by
  rw [dropPasses]
  exact Action.run_bind_of_ok h _

theorem run_dropPasses_of_lt {pending : List CatalogObject} {s s' : Session σ}
    {first : CatalogObject × DatabaseError}
    {rest : List (CatalogObject × DatabaseError)}
    (h : (dropEach db pending).run s = (.ok (first :: rest), s'))
    (hless : (first :: rest).length < pending.length) (dropped : Nat) :
    (dropPasses db pending dropped).run s =
      (dropPasses db ((first :: rest).map Prod.fst)
        (dropped + (pending.length - (first :: rest).length))).run s' := by
  rw [dropPasses]
  refine (Action.run_bind_of_ok h _).trans ?_
  simp only [dif_pos hless]

theorem run_dropPasses_of_le {pending : List CatalogObject} {s s' : Session σ}
    {o : CatalogObject} {cause : DatabaseError}
    {rest : List (CatalogObject × DatabaseError)}
    (h : (dropEach db pending).run s = (.ok ((o, cause) :: rest), s'))
    (hle : pending.length ≤ ((o, cause) :: rest).length) (dropped : Nat) :
    (dropPasses db pending dropped).run s =
      (.error (.dropFailed o.dropSql cause), s') := by
  rw [dropPasses]
  refine (Action.run_bind_of_ok h _).trans ?_
  simp only [dif_neg (Nat.not_lt.2 hle)]
  rfl

/-- By induction on the number of objects: every pass but the last drops one. -/
theorem dropPasses_ended (hdb : Releases db depends present)
    {pending : List CatalogObject} (hnodup : pending.Nodup) (dropped : Nat)
    (s : Session σ) (hpresent : present s.database = pending.toFinset) :
    let r := (dropPasses db pending dropped).run s
    Ended db depends present pending (dropped + pending.length) r.1
      (present r.2.database) := by
  induction hlength : pending.length using Nat.strong_induction_on
    generalizing pending dropped s with
  | _ n ih =>
      subst hlength
      obtain ⟨failures, s', hrun, hpassed⟩ := dropEach_passed hdb hnodup s
        (fun o ho => hpresent ▸ List.mem_toFinset.2 ho)
      cases failures with
      | nil =>
          rw [run_dropPasses_of_nil hrun]
          exact hpassed.ended_of_nil hpresent _
      | cons first rest =>
          rcases Nat.lt_or_ge (first :: rest).length pending.length with
            hless | hle
          · rw [run_dropPasses_of_lt hrun hless]
            have hnodup' : ((first :: rest).map Prod.fst).Nodup :=
              hpassed.deferred ▸ hnodup.filter _
            have hend := ih (first :: rest).length hless hnodup'
              (dropped + (pending.length - (first :: rest).length)) s'
              (hpassed.present_eq hpresent) (List.length_map _)
            have htotal : dropped + (pending.length - (first :: rest).length) +
                (first :: rest).length = dropped + pending.length := by
              omega
            rw [htotal] at hend
            exact hend.of_passed hpassed hpresent
          · rw [run_dropPasses_of_le hrun hle]
            exact hpassed.ended_of_length_le hdb hpresent hle _

/-- Whatever the order of the list, what stays when everything is dropped is the
greatest held set of objects. All is well if and only if that is empty, and else
the fault is that of its first object in the list. Where nothing depends on itself,
nothing stays. -/
theorem dropAll_leaves_held (hdb : Releases db depends present)
    {listing : List CatalogObject} (hnodup : listing.Nodup) {s : Session σ}
    {d : σ} (hlist : db.step .listObjects s.database = (.ok listing, d))
    (hpresent : present d = listing.toFinset) :
    let r := (dropAll db).run s
    let left := present r.2.database
    IsGreatest {objects | objects ⊆ listing.toFinset ∧ Held depends objects}
      left ∧
    (r.1.isOk = true ↔ left = ∅) ∧
    (left = ∅ → r.1 = .ok listing.length) ∧
    (∀ o, listing.find? (· ∈ left) = some o → ∃ cause e, present e = left ∧
      (db.step (.execute .schema o.dropSql) e).1 = .error cause ∧
      r.1 = .error (.dropFailed o.dropSql cause)) ∧
    (Acyclic depends listing.toFinset →
      r.1 = .ok listing.length ∧ left = ∅) := by
  intro r left
  obtain ⟨s₁, hcall, hs₁⟩ := Session.call_of_step hlist
  have hr : r = (dropPasses db listing 0).run s₁ :=
    Action.run_call_bind_of_ok hcall _ _
  have hend : Ended db depends present listing listing.length r.1 left := by
    have hended := dropPasses_ended hdb hnodup 0 s₁ (by rw [hs₁, hpresent])
    rw [Nat.zero_add, ← hr] at hended
    exact hended
  refine ⟨hend.greatest, ⟨fun hok => ?_, fun hnone => ?_⟩, hend.ok, hend.fault,
    fun hacyclic => ?_⟩
  · by_contra hne
    obtain ⟨o, ho⟩ := Finset.nonempty_iff_ne_empty.2 hne
    have hsome : (listing.find? (· ∈ left)).isSome = true :=
      List.find?_isSome.2
        ⟨o, List.mem_toFinset.1 (hend.greatest.1.1 ho), decide_eq_true ho⟩
    obtain ⟨p, hp⟩ := Option.isSome_iff_exists.1 hsome
    obtain ⟨cause, e, -, -, hfault⟩ := hend.fault p hp
    rw [hfault] at hok
    cases hok
  · rw [hend.ok hnone]
    rfl
  · have hnone := hend.greatest.1.2.eq_empty hend.greatest.1.1 hacyclic
    exact ⟨hend.ok hnone, hnone⟩

/-- A table that is listed first although another refers to it, and two views of
each other. -/
theorem dropAll_leaves_held_of_circle :
    let o (name : String) (kind : ObjectKind) : CatalogObject :=
      ⟨"main", name, kind⟩
    let depends (p q : CatalogObject) : Bool :=
      [("transfers", "accounts"), ("v", "w"), ("w", "v")].contains
        (p.name, q.name)
    let shelf : Shelf :=
      ⟨[o "accounts" .table, o "transfers" .table, o "w" .view, o "v" .view],
        by decide⟩
    let r := (dropAll (Shelf.database depends)).run { database := shelf }
    r.2.database.objects.toFinset = {o "w" .view, o "v" .view} ∧
      ∃ cause, r.1 = .error (.dropFailed (o "w" .view).dropSql cause) := by
  intro o depends shelf r
  have hleft : r.2.database.objects.toFinset = {o "w" .view, o "v" .view} := by
    decide +kernel
  have hnodup : shelf.objects.Nodup := by decide
  have h := dropAll_leaves_held (Shelf.releases depends) hnodup
    (s := { database := shelf }) (d := shelf) rfl rfl
  obtain ⟨cause, -, -, -, hfault⟩ :=
    h.2.2.2.1 (o "w" .view) (by decide +kernel)
  exact ⟨hleft, cause, hfault⟩

end VersionStore

end SchemaLedger
