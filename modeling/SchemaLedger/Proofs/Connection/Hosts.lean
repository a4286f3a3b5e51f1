import SchemaLedger.Connection.Host
import SchemaLedger.Proofs.Text.Escaping
import SchemaLedger.Proofs.Text.Letters
/-!
# How hosts are written

Whatever kind of host has been read, it is written with characters that are seen, and
none of them is the sign that ends the credentials in front of it: `isPlain_of_ofOpaque`
for hosts that are kept as they are, and `isPlain_of_ofDomain` for those of the web.
-/

namespace SchemaLedger

/-- The character is seen, and does not end the credentials in front of a host. -/
def Host.IsPlain (c : Char) : Prop :=
  0x20 < c.toNat ∧ c ≠ '@'

instance : DecidablePred Host.IsPlain := fun c =>
  inferInstanceAs (Decidable (0x20 < c.toNat ∧ c ≠ '@'))

namespace Address

open Host (IsPlain)

theorem isPlain_digitChar : ∀ d < 16, IsPlain (Nat.digitChar d) := by
  decide

theorem isPlain_of_mem_toDigits {base n : Nat} (hlow : 1 < base) (hhigh : base ≤ 16)
    {c : Char} (h : c ∈ Nat.toDigits base n) : IsPlain c := by
  induction n using Nat.strongRecOn with
  | ind n ih =>
      rw [Nat.toDigits_eq_if hlow] at h
      split at h
      · next hn =>
          rw [List.mem_singleton.1 h]
          exact isPlain_digitChar n (by omega)
      · next hn =>
          rcases List.mem_append.1 h with h | h
          · exact ih _ (Nat.div_lt_self (by omega) hlow) h
          · have hmod := Nat.mod_lt n (by omega : 0 < base)
            rw [List.mem_singleton.1 h]
            exact isPlain_digitChar _ (by omega)

theorem isPlain_of_mem_intercalate {separator : String} {texts : List String}
    (hsep : ∀ c ∈ separator.toList, IsPlain c)
    (h : ∀ text ∈ texts, ∀ c ∈ text.toList, IsPlain c) :
    ∀ c ∈ (separator.intercalate texts).toList, IsPlain c := by
  rw [String.toList_intercalate]
  induction texts with
  | nil => simp
  | cons text rest ih =>
      obtain ⟨htext, hrest⟩ := List.forall_mem_cons.1 h
      cases rest with
      | nil => simpa using htext
      | cons next rest =>
          rw [List.map_cons, List.map_cons, List.intercalate_cons_cons,
            ← List.map_cons]
          exact List.forall_mem_append.2
            ⟨List.forall_mem_append.2 ⟨htext, hsep⟩, ih hrest⟩

theorem isPlain_of_mem_renderV4 {n : Nat} : ∀ c ∈ (renderV4 n).toList, IsPlain c := by
  refine isPlain_of_mem_intercalate (by simp [IsPlain]) fun text htext c hc => ?_
  obtain ⟨byte, -, rfl⟩ := List.mem_map.1 htext
  exact isPlain_of_mem_toDigits (by decide) (by decide) (Nat.toList_repr ▸ hc)

theorem isPlain_of_mem_renderV6 {groups : List Nat} :
    ∀ c ∈ (renderV6 groups).toList, IsPlain c := by
  have hjoin (gs : List Nat) :
      ∀ c ∈ (":".intercalate (gs.map renderGroup)).toList, IsPlain c := by
    refine isPlain_of_mem_intercalate (by simp [IsPlain]) fun text htext c hc => ?_
    obtain ⟨g, -, rfl⟩ := List.mem_map.1 htext
    rw [renderGroup, String.toList_ofList] at hc
    exact isPlain_of_mem_toDigits (by decide) (by decide) hc
  rw [renderV6]
  split
  · exact hjoin groups
  · simp only [String.toList_append, List.forall_mem_append]
    exact ⟨⟨hjoin _, by simp [IsPlain]⟩, hjoin _⟩

end Address

namespace Host

theorem isPlain_of_isAlphanum {c : Char} (h : c.isAlphanum = true) : IsPlain c := by
  have hbounds := Text.isAlphanum_iff.1 h
  have hat : '@'.toNat = 0x40 := rfl
  refine ⟨by omega, ?_⟩
  rintro rfl
  omega

theorem isPlain_of_not_forbidden {c : Char} (h : forbidden c = false)
    (hvisible : 0x20 ≤ c.toNat) : IsPlain c := by
  have hne {d : Char} (hd : forbidden d = true) : c ≠ d := by
    rintro rfl
    rw [h] at hd
    cases hd
  refine ⟨Nat.lt_of_le_of_ne hvisible fun heq => ?_, hne (by decide)⟩
  exact hne (d := ' ') (by decide) (Char.toNat_inj.1 heq.symm)

theorem isPlain_of_ofBrackets {text : List Char} {host : Host}
    (h : ofBrackets text = .ok host) : ∀ c ∈ host.render.toList, IsPlain c := by
  rw [ofBrackets] at h
  split at h
  · split at h
    · cases h
      simp only [render, String.toList_append, List.forall_mem_append]
      exact ⟨⟨by simp [IsPlain], Address.isPlain_of_mem_renderV6⟩, by simp [IsPlain]⟩
    · cases h
  · cases h

theorem isPlain_of_ofOpaque {text : List Char} {host : Host}
    (h : ofOpaque text = .ok host) : ∀ c ∈ host.render.toList, IsPlain c := by
  rw [ofOpaque] at h
  split at h
  · exact isPlain_of_ofBrackets h
  · split at h
    · cases h
    · next hforbidden =>
        cases h
        intro c hc
        rw [render, String.toList_ofList] at hc
        rcases Percent.kept_or_of_mem_encode hc with ⟨hmem, hkeep⟩ | rfl | halnum
        · rw [List.any_eq_true] at hforbidden
          simp only [keepVisible, Bool.and_eq_true, decide_eq_true_eq] at hkeep
          exact isPlain_of_not_forbidden
            (Bool.eq_false_iff.2 fun hc => hforbidden ⟨c, hmem, hc⟩) hkeep.1
        · decide
        · exact isPlain_of_isAlphanum halnum

theorem isPlain_of_ofDomain {text : List Char} {host : Host}
    (h : ofDomain text = .ok host) : ∀ c ∈ host.render.toList, IsPlain c := by
  rw [ofDomain] at h
  split at h
  · exact isPlain_of_ofBrackets h
  · split at h
    · cases h
    · dsimp only at h
      split at h
      · cases h
      · next hforbidden =>
          split at h
          · cases h
          · split at h
            · split at h
              · cases h
                exact Address.isPlain_of_mem_renderV4
              · cases h
            · cases h
              intro c hc
              rw [render, String.toList_ofList] at hc
              rw [List.any_eq_true] at hforbidden
              have hallowed : forbiddenInDomain c = false :=
                Bool.eq_false_iff.2 fun h => hforbidden ⟨c, hc, h⟩
              simp only [forbiddenInDomain, Bool.or_eq_false_iff,
                decide_eq_false_iff_not] at hallowed
              exact isPlain_of_not_forbidden hallowed.1.1.1 (by omega)

end Host

end SchemaLedger
