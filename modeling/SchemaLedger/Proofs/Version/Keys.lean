import SchemaLedger.Proofs.Version.Table
/-!
# Keys in order

A source of sequence keys issues keys at clock readings and is shown keys that
others have issued. What it remembers is the greatest of all these, so each key
that it issues lies at or above every earlier one, whatever the clock says. It lies
strictly above them if and only if none of them is the greatest key there is: that
one is issued again and again, `lt_issue_iff`.
-/

namespace SchemaLedger.SequenceKeys

inductive Use where
  /-- A key is issued. The clock may give no reading. -/
  | issue (reading? : Option UInt64)
  | observe (key : UInt64)
  deriving DecidableEq, Repr

namespace Use

/-- The key that a use is about: the one issued, or the one shown to the source. -/
def key (k : SequenceKeys) : Use → UInt64
  | issue reading? => k.issue (reading?.getD 0)
  | observe key => key

def after (k : SequenceKeys) : Use → SequenceKeys
  | issue reading? => k.issued (reading?.getD 0)
  | observe key => k.observe key

theorem last_after (k : SequenceKeys) (u : Use) :
    k.last ≤ (u.after k).last ∧ u.key k ≤ (u.after k).last ∧
      ((u.after k).last = k.last ∨ (u.after k).last = u.key k) := by
  cases u with
  | issue reading? =>
      have hle := le_issue k (reading?.getD 0)
      exact ⟨hle, UInt64.le_refl _, Or.inr rfl⟩
  | observe key =>
      have hmax : max k.last key = if k.last ≤ key then key else k.last := rfl
      obtain ⟨hlast, hkey⟩ := le_max k.last key
      refine ⟨hlast, hkey, ?_⟩
      change max k.last key = k.last ∨ max k.last key = key
      rw [hmax]
      split
      · exact Or.inr rfl
      · exact Or.inl rfl

end Use

def afterUses (k : SequenceKeys) (uses : List Use) : SequenceKeys :=
  uses.foldl Use.after k

/-- The keys issued by a source and shown to it, in order. -/
def keysOf (k : SequenceKeys) : List Use → List UInt64
  | [] => []
  | u :: uses => u.key k :: keysOf (u.after k) uses

theorem keysOf_cons (k : SequenceKeys) (u : Use) (uses : List Use) :
    k.keysOf (u :: uses) = u.key k :: (u.after k).keysOf uses := rfl

theorem afterUses_cons (k : SequenceKeys) (u : Use) (uses : List Use) :
    k.afterUses (u :: uses) = (u.after k).afterUses uses := rfl

theorem last_afterUses (k : SequenceKeys) (uses : List Use) :
    k.last ≤ (k.afterUses uses).last ∧
      (∀ key ∈ k.keysOf uses, key ≤ (k.afterUses uses).last) ∧
      ((k.afterUses uses).last = k.last ∨
        (k.afterUses uses).last ∈ k.keysOf uses) := by
  induction uses generalizing k with
  | nil => exact ⟨UInt64.le_refl _, nofun, Or.inl rfl⟩
  | cons u uses ih =>
      obtain ⟨hlast, hkey, hone⟩ := u.last_after k
      obtain ⟨hlast', hkeys, hone'⟩ := ih (u.after k)
      rw [afterUses_cons, keysOf_cons]
      refine ⟨UInt64.le_trans hlast hlast', List.forall_mem_cons.2
        ⟨UInt64.le_trans hkey hlast', hkeys⟩, ?_⟩
      rcases hone' with hsame | hmem
      · rw [hsame]
        exact hone.imp_right fun h => by rw [h]; exact List.mem_cons_self
      · exact Or.inr (List.mem_cons_of_mem _ hmem)

theorem le_maxKey (key : UInt64) : key ≤ maxKey := by
  have hmax : maxKey.toNat = 2 ^ 64 - 1 := rfl
  have hlt := key.toNat_lt
  rw [UInt64.le_iff_toNat_le]
  omega

theorem issue_of_last_eq_maxKey {k : SequenceKeys} (h : k.last = maxKey)
    (now : UInt64) : k.issue now = maxKey :=
  UInt64.le_antisymm (le_maxKey _) (h ▸ le_issue k now)

/-- A key that is issued lies at or above all keys issued and observed before it,
at any clock readings. It lies above them all if and only if the greatest key is
not among them, and if it is then the greatest key is issued once more. -/
theorem lt_issue_iff (uses : List Use) (reading? : Option UInt64) :
    let earlier := ({} : SequenceKeys).keysOf uses
    let issued := (Use.issue reading?).key (({} : SequenceKeys).afterUses uses)
    ((∀ key ∈ earlier, key < issued) ↔ maxKey ∉ earlier) ∧
      (∀ key ∈ earlier, key ≤ issued) ∧
      (maxKey ∈ earlier → issued = maxKey) := by
  intro earlier issued
  obtain ⟨-, hkeys, hone⟩ := last_afterUses {} uses
  have hle := le_issue (({} : SequenceKeys).afterUses uses) (reading?.getD 0)
  have hmax : maxKey ∈ earlier → issued = maxKey := fun hmem =>
    issue_of_last_eq_maxKey (UInt64.le_antisymm (le_maxKey _) (hkeys _ hmem)) _
  refine ⟨⟨fun hlt hmem => ?_, fun hnot key hkey => ?_⟩, fun key hkey =>
    UInt64.le_trans (hkeys key hkey) hle, hmax⟩
  · have hself := hlt maxKey hmem
    rw [hmax hmem] at hself
    exact UInt64.lt_irrefl _ hself
  · -- What is remembered is among the earlier keys, or it is still zero.
    refine UInt64.lt_of_le_of_lt (hkeys key hkey) (lt_issue (fun hlast => ?_) _)
    rw [hlast] at hone
    rcases hone with hzero | hmem
    · exact absurd hzero (by decide)
    · exact hnot hmem

/-- A clock that lies behind a key that was observed. -/
theorem lt_issue_of_slow_clock :
    let uses : List Use := [.observe 7, .issue (some 3)]
    ({} : SequenceKeys).keysOf uses = [7, 8] ∧
      ∀ key ∈ ({} : SequenceKeys).keysOf uses,
        key < (Use.issue (some 2)).key (({} : SequenceKeys).afterUses uses) := by
  intro uses
  exact ⟨by decide, (lt_issue_iff uses (some 2)).1.2 (by decide)⟩

/-- The greatest key is issued twice in a row. -/
theorem issue_not_lt :
    let uses : List Use := [.observe (maxKey - 1), .issue none]
    let issued := (Use.issue (some 5)).key (({} : SequenceKeys).afterUses uses)
    ({} : SequenceKeys).keysOf uses = [maxKey - 1, maxKey] ∧ issued = maxKey ∧
      ¬ ∀ key ∈ ({} : SequenceKeys).keysOf uses, key < issued := by
  intro uses issued
  have hkeys : ({} : SequenceKeys).keysOf uses = [maxKey - 1, maxKey] := by decide
  have hissued : issued = maxKey := by decide
  refine ⟨hkeys, hissued, fun hlt => ?_⟩
  have hself := hlt maxKey (by rw [hkeys]; simp)
  rw [hissued] at hself
  exact UInt64.lt_irrefl _ hself

end SchemaLedger.SequenceKeys
