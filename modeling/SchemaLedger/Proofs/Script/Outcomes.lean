import SchemaLedger.InputError
import SchemaLedger.Proofs.Script.Pieces
/-!
# What the pieces of a script lead to

`outcomes` says what a splitter hands out for the pieces of a script, knowing
nothing of its loop but the offsets at which reads end. A piece is handed out
if it fits: it is no longer than the cap, and it is *calm*, that is, no read
ends inside the delimiter behind it at a place where the bytes held, a part of
the delimiter among them, are already more than the cap. The first piece that
does not fit ends the iteration.

The closed forms below speak of the pieces before that one.
-/

namespace SchemaLedger

namespace Script

/-- What an iteration hands out: a statement, or the fault that ends it. -/
abbrev Yield := Except InputError (List UInt8)

/-- No read ends inside the delimiter behind the piece after more than `cap`
bytes of piece and delimiter have been read. -/
def Piece.Calm (cap width : Nat) (ends : List Nat) (p : Piece) : Prop :=
  ∀ e ∈ ends, e ≤ p.start + cap ∨ p.stop width ≤ e

instance (cap width : Nat) (ends : List Nat) (p : Piece) :
    Decidable (p.Calm cap width ends) :=
  inferInstanceAs (Decidable (∀ e ∈ ends, e ≤ p.start + cap ∨ p.stop width ≤ e))

def Piece.Fits (cap width : Nat) (ends : List Nat) (p : Piece) : Prop :=
  p.bytes.length ≤ cap ∧ p.Calm cap width ends

theorem fits_mk {cap width : Nat} {ends : List Nat} {o : Nat}
    {p : List UInt8} :
    Piece.Fits cap width ends ⟨o, p⟩ ↔
      p.length ≤ cap ∧ ∀ e ∈ ends, e ≤ o + cap ∨ o + p.length + width ≤ e :=
  Iff.rfl

instance (cap width : Nat) (ends : List Nat) (p : Piece) :
    Decidable (p.Fits cap width ends) :=
  inferInstanceAs (Decidable (_ ∧ _))

/-- What is handed out for the last piece. A failure of the source takes its
place. -/
def closing (fault? : Option String) (p : Piece) : List Yield :=
  match fault? with
  | some reason => [.error (.scriptUnreadable reason)]
  | none => (statements [p.bytes]).map .ok

/-- What is handed out for the pieces of a script, when reads end at `ends`. -/
def outcomes (cap width : Nat) (ends : List Nat) (fault? : Option String) :
    List Piece → List Yield
  | [] => []
  | [p] =>
    if p.Fits cap width ends then closing fault? p
    else
      [.error (.statementTooLarge cap)]
  | p :: q :: ps =>
    if p.Fits cap width ends then
      (statements [p.bytes]).map .ok ++
        outcomes cap width ends fault? (q :: ps)
    else
      [.error (.statementTooLarge cap)]

/-- A piece that is too long, or not calm, ends the iteration. -/
theorem outcomes_cons_of_not_fits {cap width : Nat} {ends : List Nat}
    {fault? : Option String} {p : Piece} {ps : List Piece}
    (h : ¬ p.Fits cap width ends) :
    outcomes cap width ends fault? (p :: ps) =
      [.error (.statementTooLarge cap)] := by
  cases ps with
  | nil => rw [outcomes, if_neg h]
  | cons q ps => rw [outcomes, if_neg h]

theorem outcomes_cons_of_fits {cap width : Nat} {ends : List Nat}
    {fault? : Option String} {p : Piece} {ps : List Piece}
    (h : p.Fits cap width ends) (hps : ps ≠ []) :
    outcomes cap width ends fault? (p :: ps) =
      (statements [p.bytes]).map .ok ++
        outcomes cap width ends fault? ps := by
  cases ps with
  | nil => exact absurd rfl hps
  | cons q ps => rw [outcomes, if_pos h]

theorem outcomes_singleton {cap width : Nat} {ends : List Nat}
    {fault? : Option String} {p : Piece} (h : p.Fits cap width ends) :
    outcomes cap width ends fault? [p] = closing fault? p := by
  rw [outcomes, if_pos h]

/-- The end of a read at which the bytes held are no more than the cap, for any
piece, changes nothing. -/
theorem outcomes_cons_end {cap width e : Nat} {ends : List Nat}
    {fault? : Option String} {ps : List Piece}
    (h : ∀ p ∈ ps, e ≤ p.start + cap) :
    outcomes cap width (e :: ends) fault? ps =
      outcomes cap width ends fault? ps := by
  have hfits : ∀ p ∈ ps,
      (p.Fits cap width (e :: ends) ↔ p.Fits cap width ends) := fun p hp => by
    simp [Piece.Fits, Piece.Calm, h p hp]
  induction ps with
  | nil => rfl
  | cons p ps ih =>
      have htail := ih (fun q hq => h q (List.mem_cons_of_mem p hq))
        fun q hq => hfits q (List.mem_cons_of_mem p hq)
      have hp := hfits p List.mem_cons_self
      cases ps with
      | nil => simp only [outcomes, hp]
      | cons q ps => simp only [outcomes, hp, htail]

theorem outcomes_of_forall_fits {cap width : Nat} {ends : List Nat}
    {fault? : Option String} {ps : List Piece} (p : Piece)
    (h : ∀ q ∈ ps ++ [p], q.Fits cap width ends) :
    outcomes cap width ends fault? (ps ++ [p]) =
      (statements (ps.map Piece.bytes)).map .ok ++ closing fault? p := by
  induction ps with
  | nil => exact outcomes_singleton (h p (by simp))
  | cons q ps ih =>
      rw [List.cons_append, outcomes_cons_of_fits (h q (by simp)) (by simp),
        ih fun r hr => h r (List.mem_cons_of_mem q hr), List.map_cons,
        statements_cons q.bytes (ps.map _), List.map_append, List.append_assoc]

theorem outcomes_append_of_not_fits {cap width : Nat} {ends : List Nat}
    {fault? : Option String} {front back : List Piece} {p : Piece}
    (hfront : ∀ q ∈ front, q.Fits cap width ends)
    (hp : ¬ p.Fits cap width ends) :
    outcomes cap width ends fault? (front ++ p :: back) =
      (statements (front.map Piece.bytes)).map .ok ++
        [.error (.statementTooLarge cap)] := by
  induction front with
  | nil => exact outcomes_cons_of_not_fits hp
  | cons q front ih =>
      rw [List.cons_append, outcomes_cons_of_fits (hfront q (by simp)) (by simp),
        ih fun r hr => hfront r (List.mem_cons_of_mem q hr), List.map_cons,
        statements_cons q.bytes (front.map _), List.map_append,
        List.append_assoc]

theorem forall_fits_or_exists_first (cap width : Nat) (ends : List Nat)
    (ps : List Piece) :
    (∀ p ∈ ps, p.Fits cap width ends) ∨
      ∃ front p back, ps = front ++ p :: back ∧
        (∀ q ∈ front, q.Fits cap width ends) ∧ ¬ p.Fits cap width ends := by
  induction ps with
  | nil => exact Or.inl (by simp)
  | cons p ps ih =>
      by_cases hp : p.Fits cap width ends
      · rcases ih with hall | ⟨front, q, back, rfl, hfront, hq⟩
        · exact Or.inl (List.forall_mem_cons.2 ⟨hp, hall⟩)
        · exact Or.inr ⟨p :: front, q, back, rfl,
            List.forall_mem_cons.2 ⟨hp, hfront⟩, hq⟩
      · exact Or.inr ⟨[], p, ps, rfl, by simp, hp⟩

end Script

end SchemaLedger
