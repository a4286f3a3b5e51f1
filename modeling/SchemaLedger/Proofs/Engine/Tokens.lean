import SchemaLedger.Engine.Database
import SchemaLedger.Proofs.Sql.Quoting
/-!
# The tokens of generated SQL

How the engine reads the texts that drivers write. Tokens are taken from the
front one after the other, so a text reads as its first token does, in front of
what follows. A quoted name is one token whatever is in it, unless it is empty:
then the whole text is refused.
-/

namespace SchemaLedger.Engine.Token

/-- The tokens of a text, given as many steps as it has characters, or more. -/
def Reads (s : List Char) (ts : List Token) : Prop :=
  ∀ steps, s.length ≤ steps → ofCharsWithin steps s = some ts

/-- A text that is refused in any number of steps. -/
def Refused (s : List Char) : Prop :=
  ∀ steps, ofCharsWithin steps s = none

variable {s rest : List Char} {ts : List Token}

theorem Reads.ofChars? (h : Reads s ts) : Token.ofChars? s = some ts :=
  h s.length (Nat.le_refl _)

theorem Refused.ofChars? (h : Refused s) : Token.ofChars? s = none :=
  h s.length

theorem ofCharsWithin_succ (steps : Nat) (c : Char) (s : List Char) :
    ofCharsWithin (steps + 1) (c :: s) = do
      let (token, rest) ← next? (c :: s)
      let tokens ← ofCharsWithin steps rest
      return token.toList ++ tokens := rfl

theorem Reads.nil : Reads [] [] := by
  intro steps _
  cases steps <;> rfl

theorem Reads.step {token? : Option Token}
    (hnext : next? s = some (token?, rest)) (hlen : rest.length < s.length)
    (h : Reads rest ts) : Reads s (token?.toList ++ ts) := by
  intro steps hsteps
  cases s with
  | nil => cases hlen
  | cons c s =>
      cases steps with
      | zero => cases hsteps
      | succ steps =>
          have hrest := h steps (by simp only [List.length_cons] at *; omega)
          rw [ofCharsWithin_succ, hnext]
          simp only [Option.bind_eq_bind, Option.bind_some, hrest]
          rfl

theorem Refused.step {token? : Option Token}
    (hnext : next? s = some (token?, rest)) (hs : s ≠ []) (h : Refused rest) :
    Refused s := by
  intro steps
  cases s with
  | nil => exact absurd rfl hs
  | cons c s =>
      cases steps with
      | zero => rfl
      | succ steps =>
          rw [ofCharsWithin_succ, hnext]
          simp only [Option.bind_eq_bind, Option.bind_some, h steps,
            Option.bind_none]

theorem Refused.of_next? (hnext : next? s = none) : Refused s := by
  intro steps
  cases s with
  | nil => cases hnext
  | cons c s =>
      cases steps with
      | zero => rfl
      | succ steps =>
          rw [ofCharsWithin_succ, hnext]
          rfl

theorem ofCharsWithin_mono {steps more : Nat} (hle : steps ≤ more)
    (h : ofCharsWithin steps s = some ts) : ofCharsWithin more s = some ts := by
  induction steps generalizing more s ts with
  | zero =>
      cases s with
      | nil => cases more <;> exact h
      | cons c s => cases h
  | succ steps ih =>
      cases s with
      | nil => cases more <;> exact h
      | cons c s =>
          cases more with
          | zero => cases hle
          | succ more =>
              rw [ofCharsWithin_succ] at h ⊢
              cases hnext : next? (c :: s) with
              | none =>
                  rw [hnext] at h
                  cases h
              | some p =>
                  rw [hnext] at h
                  simp only [Option.bind_eq_bind, Option.bind_some] at h ⊢
                  cases hrest : ofCharsWithin steps p.2 with
                  | none =>
                      rw [hrest] at h
                      cases h
                  | some tokens =>
                      rw [hrest] at h
                      rw [ih (Nat.le_of_succ_le_succ hle) hrest]
                      exact h

theorem reads_of_ofChars? (h : Token.ofChars? s = some ts) : Reads s ts :=
  fun _ hsteps => ofCharsWithin_mono hsteps h

/-- A word begins with a letter. -/
def IsPlain (w : String) : Bool :=
  w.toList.head?.any Char.isAlpha && w.toList.all continuesWord

theorem next?_letter {c : Char} (hc : c.isAlpha = true) (s : List Char) :
    next? (c :: s) =
      some (some (.word (String.ofList ((c :: s).takeWhile continuesWord))),
        (c :: s).drop ((c :: s).takeWhile continuesWord).length) := by
  have hspace : isSpace c = false := by
    simp only [isSpace, Bool.or_eq_false_iff, beq_eq_false_iff_ne]
    refine ⟨⟨⟨⟨⟨?_, ?_⟩, ?_⟩, ?_⟩, ?_⟩, ?_⟩ <;>
      (rintro rfl; exact absurd hc (by decide))
  have hbegins : beginsWord c = true := by simp [beginsWord, hc]
  rw [next?.eq_def]
  split
  case h_6 h =>
    cases h
    rw [if_neg (by simp [hspace]), if_pos hbegins]
  -- The other tokens, and comments, begin with another character.
  case h_1 h => cases h
  all_goals
    next h =>
      obtain rfl := (List.cons.inj h).1
      exact absurd hc (by decide)

theorem next?_word {w : String} (hw : IsPlain w = true)
    (hs : s.head?.all (!continuesWord ·) = true) :
    next? (w.toList ++ s) = some (some (.word w), s) := by
  rw [IsPlain, Bool.and_eq_true] at hw
  have htake : (w.toList ++ s).takeWhile continuesWord = w.toList := by
    rw [List.takeWhile_append_of_pos (List.all_eq_true.1 hw.2)]
    cases s <;> simp_all
  cases hchars : w.toList with
  | nil =>
      rw [hchars] at hw
      cases hw.1
  | cons c cs =>
      rw [hchars] at hw htake
      rw [List.cons_append] at htake ⊢
      rw [next?_letter (by simpa using hw.1), htake, ← List.cons_append,
        List.drop_left, ← hchars, String.ofList_toList]

theorem Reads.word {w : String} (hw : IsPlain w = true)
    (hs : s.head?.all (!continuesWord ·) = true) (h : Reads s ts) :
    Reads (w.toList ++ s) (.word w :: ts) := by
  refine .step (next?_word hw hs) ?_ h
  cases hchars : w.toList with
  | nil =>
      rw [IsPlain, hchars] at hw
      cases hw
  | cons c cs => simp only [List.length_append, List.length_cons]; omega

theorem Reads.space (h : Reads s ts) : Reads (' ' :: s) ts :=
  .step (rfl : next? (' ' :: s) = some (none, s)) (Nat.lt_succ_self _) h

theorem Reads.bracket {c : Char} (hc : c = '(' ∨ c = ')') (h : Reads s ts) :
    Reads (c :: s) (.symbol (String.singleton c) :: ts) := by
  rcases hc with rfl | rfl
  · exact .step (rfl : next? ('(' :: s) = some (some (.symbol "("), s))
      (Nat.lt_succ_self _) h
  · exact .step (rfl : next? (')' :: s) = some (some (.symbol ")"), s))
      (Nat.lt_succ_self _) h

theorem Refused.word {w : String} (hw : IsPlain w = true)
    (hs : s.head?.all (!continuesWord ·) = true) (h : Refused s) :
    Refused (w.toList ++ s) := by
  refine .step (next?_word hw hs) ?_ h
  intro hnil
  rw [IsPlain, (List.append_eq_nil_iff.1 hnil).1] at hw
  cases hw

theorem Refused.space (h : Refused s) : Refused (' ' :: s) :=
  .step (rfl : next? (' ' :: s) = some (none, s)) (List.cons_ne_nil _ _) h

/-- A quoted name is a token, unless nothing is between its quotes. -/
theorem next?_quoted (name : String) (hs : s.head? ≠ some '"') :
    next? ((Sql.quoteIdentifier name).toList ++ s) =
      if name = "" then none else some (some (.name name), s) := by
  have hread := Sql.readQuoted_double name.toList hs
  rw [Sql.toList_quoteIdentifier, List.append_assoc, List.singleton_append,
    List.cons_append]
  change (Sql.readQuoted '"' (Sql.double '"' name.toList ++ '"' :: s)).bind (fun r =>
    if r.1.isEmpty then none
    else some (some (Token.name (String.ofList r.1)), r.2)) = _
  rw [hread]
  by_cases hname : name = ""
  · subst hname
    rfl
  · have hchars : name.toList ≠ [] := by simpa using hname
    simp [hname, hchars]

def ofPath : List String → List Token
  | [] => []
  | p :: ps => .name p :: ps.flatMap fun q => [.symbol ".", .name q]

def quotedPath (ps : List String) : List Char :=
  (".".intercalate (ps.map Sql.quoteIdentifier)).toList

@[simp] theorem quotedPath_nil : quotedPath [] = [] := rfl

theorem quotedPath_singleton (p : String) :
    quotedPath [p] = (Sql.quoteIdentifier p).toList := rfl

theorem quotedPath_cons_cons (p q : String) (ps : List String) :
    quotedPath (p :: q :: ps) =
      (Sql.quoteIdentifier p).toList ++ '.' :: quotedPath (q :: ps) := by
  rw [quotedPath, List.map_cons, List.map_cons, String.intercalate_cons_cons,
    String.toList_append, String.toList_append, List.append_assoc]
  rfl

theorem head?_quotedPath (p : String) (ps : List String) (s : List Char) :
    (quotedPath (p :: ps) ++ s).head? = some '"' := by
  cases ps with
  | nil => simp [quotedPath_singleton, Sql.toList_quoteIdentifier]
  | cons q ps => simp [quotedPath_cons_cons, Sql.toList_quoteIdentifier]

def behind : List String → List Char
  | [] => []
  | q :: qs => '.' :: quotedPath (q :: qs)

theorem quotedPath_cons (p : String) (ps : List String) :
    quotedPath (p :: ps) = (Sql.quoteIdentifier p).toList ++ behind ps := by
  cases ps with
  | nil => rw [behind, List.append_nil, quotedPath_singleton]
  | cons q qs => rw [behind, quotedPath_cons_cons]

theorem head?_behind (ps : List String) : (behind ps).head? ≠ some '"' := by
  cases ps <;> simp [behind]

theorem tail_behind (ps : List String) : (behind ps).tail = quotedPath ps := by
  cases ps with
  | nil => rw [behind, quotedPath_nil, List.tail_nil]
  | cons q qs => rw [behind, List.tail_cons]

theorem quotedPath_injective {ps qs : List String}
    (h : quotedPath ps = quotedPath qs) : ps = qs := by
  have hnil : ∀ (p : String) (ps : List String), quotedPath (p :: ps) ≠ [] := by
    intro p ps
    simp [quotedPath_cons, Sql.toList_quoteIdentifier]
  induction ps generalizing qs with
  | nil =>
      rw [quotedPath_nil] at h
      cases qs with
      | nil => rfl
      | cons q qs => exact absurd h.symm (hnil q qs)
  | cons p ps ih =>
      cases qs with
      | nil =>
          rw [quotedPath_nil] at h
          exact absurd h (hnil p ps)
      | cons q qs =>
          rw [quotedPath_cons, quotedPath_cons] at h
          obtain ⟨rfl, hbehind⟩ := Sql.eq_of_quoteIdentifier_append_eq
            (head?_behind ps) (head?_behind qs) h
          have htail : ps = qs := ih (by rw [← tail_behind, hbehind, tail_behind])
          rw [htail]

/-- A point in front of a quoted name begins no number. -/
theorem next?_point (hs : s.head? = some '"') :
    next? ('.' :: s) = some (some (.symbol "."), s) := by
  obtain ⟨t, rfl⟩ := List.head?_eq_some_iff.1 hs
  rfl

theorem Reads.name {p : String} (hp : p ≠ "") (hs : s.head? ≠ some '"')
    (h : Reads s ts) :
    Reads ((Sql.quoteIdentifier p).toList ++ s) (.name p :: ts) := by
  refine .step (by rw [next?_quoted p hs, if_neg hp]) ?_ h
  rw [Sql.toList_quoteIdentifier]
  simp only [List.length_append, List.length_cons]
  omega

/-- Quoted names read as a path, if each of them is a name. -/
theorem Reads.path {p : String} {ps : List String} (hps : "" ∉ p :: ps)
    (hs : s.head? ≠ some '"') (h : Reads s ts) :
    Reads (quotedPath (p :: ps) ++ s) (ofPath (p :: ps) ++ ts) := by
  induction ps generalizing p with
  | nil => exact .name (by simpa using Ne.symm (List.ne_of_not_mem_cons hps)) hs h
  | cons q ps ih =>
      have hp : p ≠ "" := Ne.symm (List.ne_of_not_mem_cons hps)
      have hrest := ih (List.not_mem_of_not_mem_cons hps)
      rw [quotedPath_cons_cons, List.append_assoc, List.cons_append]
      exact .name hp (by simp)
        (.step (next?_point (head?_quotedPath q ps s)) (Nat.lt_succ_self _) hrest)

/-- Quoted names are refused if one of them is empty. -/
theorem Refused.path {p : String} {ps : List String} (hps : "" ∈ p :: ps)
    (hs : s.head? ≠ some '"') : Refused (quotedPath (p :: ps) ++ s) := by
  induction ps generalizing p with
  | nil =>
      obtain rfl := List.mem_singleton.1 hps
      exact .of_next? (by rw [quotedPath_singleton, next?_quoted _ hs, if_pos rfl])
  | cons q ps ih =>
      rw [quotedPath_cons_cons, List.append_assoc, List.cons_append]
      have hpoint : ('.' :: (quotedPath (q :: ps) ++ s)).head? ≠ some '"' := by
        simp
      by_cases hp : p = ""
      · exact .of_next? (by rw [next?_quoted _ hpoint, if_pos hp])
      · have hrest := ih ((List.mem_cons.1 hps).resolve_left (Ne.symm hp))
        refine .step (by rw [next?_quoted _ hpoint, if_neg hp]) ?_
          (.step (next?_point (head?_quotedPath q ps s)) (List.cons_ne_nil _ _)
            hrest)
        simp

end SchemaLedger.Engine.Token
