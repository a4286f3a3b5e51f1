import SchemaLedger.Script.Splitter
/-!
# What the reads of a source bring

A source is known to its reader by three things: the bytes that it brings
before it ends or fails, which are its `content`, the reason of the failure, if
there is one, and the offsets in the content at which single reads end. One
read takes some bytes off the content and leaves the rest and the reason as
they are. Interruptions are seen by nobody, and neither is anything behind the
end or the failure.
-/

namespace SchemaLedger

namespace Source

/-- The bytes that reads bring before the source ends or fails. -/
def content : Source → List UInt8
  | [] => []
  | .interrupted :: rest => content rest
  | .failed _ :: _ => []
  | .bytes [] :: _ => []
  | .bytes (b :: bs) :: rest => b :: bs ++ content rest

/-- Why reads fail after the content, if they do. -/
def fault? : Source → Option String
  | [] => none
  | .interrupted :: rest => fault? rest
  | .failed reason :: _ => some reason
  | .bytes [] :: _ => none
  | .bytes (_ :: _) :: rest => fault? rest

theorem length_delivered_read_le (limit : Nat) (s : Source) :
    (s.read limit).1.delivered.length ≤ limit := by
  fun_induction read limit s with
  | case1 => simp [Answer.delivered]
  | case2 s ih => exact ih
  | case3 => simp [Answer.delivered]
  | case4 bs s hle => exact hle
  | case5 bs s hle => exact List.length_take_le _ _

theorem content_of_read {limit : Nat} {s rest : Source} {b : UInt8}
    {bs : List UInt8} (h : s.read limit = (.bytes (b :: bs), rest)) :
    s.content = b :: bs ++ rest.content ∧ s.fault? = rest.fault? := by
  fun_induction read limit s with
  | case1 => simp at h
  | case2 s ih => exact ih h
  | case3 => simp at h
  | case4 cs s hle =>
      obtain ⟨rfl, rfl⟩ : cs = b :: bs ∧ s = rest := by simpa using h
      exact ⟨rfl, rfl⟩
  | case5 cs s hle =>
      obtain ⟨htake, rfl⟩ : cs.take limit = b :: bs ∧
          .bytes (cs.drop limit) :: s = rest := by simpa using h
      cases hdrop : cs.drop limit with
      | nil =>
          have := List.drop_eq_nil_iff.1 hdrop
          omega
      | cons c more =>
          have hcs : cs = b :: bs ++ (c :: more) := by
            rw [← htake, ← hdrop, List.take_append_drop]
          rw [hcs]
          exact ⟨by simp [content], rfl⟩

theorem content_of_read_nil {limit : Nat} {s rest : Source} (hl : 0 < limit)
    (h : s.read limit = (.bytes [], rest)) :
    s.content = [] ∧ s.fault? = none := by
  fun_induction read limit s with
  | case1 => exact ⟨rfl, rfl⟩
  | case2 s ih => exact ih h
  | case3 => simp at h
  | case4 cs s hle =>
      obtain ⟨rfl, rfl⟩ : cs = [] ∧ s = rest := by simpa using h
      exact ⟨rfl, rfl⟩
  | case5 cs s hle =>
      have htake : cs.take limit = [] := (by simpa using h : _ ∧ _).1
      have := congrArg List.length htake
      rw [List.length_take, List.length_nil] at this
      omega

theorem content_of_read_failed {limit : Nat} {s rest : Source} {reason : String}
    (h : s.read limit = (.failed reason, rest)) :
    s.content = [] ∧ s.fault? = some reason := by
  fun_induction read limit s with
  | case1 => simp at h
  | case2 s ih => exact ih h
  | case3 => simp_all [content, fault?]
  | case4 => simp at h
  | case5 => simp at h

theorem readAll_fst (s : Source) :
    s.readAll.1 =
      match s.fault? with
      | none => .bytes s.content
      | some reason => .failed reason := by
  fun_induction readAll s with
  | case1 => rfl
  | case2 s ih => exact ih
  | case3 => rfl
  | case4 => rfl
  | case5 b bs s more left hr ih =>
      rw [hr] at ih
      cases hf : fault? s <;> simp_all [content, fault?]
  | case6 b bs s reason left hr ih =>
      rw [hr] at ih
      cases hf : fault? s <;> simp_all [fault?]

/-- The offsets at which successive reads of at most `limit` bytes end, the
first of them beginning at offset `o`. The read that brings nothing is left
out. -/
def readEnds (limit o : Nat) (s : Source) : List Nat :=
  match _h : s.read limit with
  | (.bytes (b :: bs), rest) =>
    (o + (b :: bs).length) :: readEnds limit (o + (b :: bs).length) rest
  | _ => []
termination_by s.size
decreasing_by
  have := size_read limit s
  rw [_h] at this
  simp only [Answer.delivered, List.length_cons] at this
  omega

theorem readEnds_of_read {limit o : Nat} {s rest : Source} {b : UInt8}
    {bs : List UInt8} (h : s.read limit = (.bytes (b :: bs), rest)) :
    readEnds limit o s =
      (o + (b :: bs).length) :: readEnds limit (o + (b :: bs).length) rest := by
  rw [readEnds]
  split
  · next heq =>
      rw [h] at heq
      cases heq
      rfl
  · next hne => exact absurd h (hne b bs rest)

theorem readEnds_of_content_eq_nil {limit o : Nat} {s : Source}
    (h : s.content = []) : readEnds limit o s = [] := by
  rw [readEnds]
  split
  · next heq =>
      have := (content_of_read heq).1
      simp [h] at this
  · rfl

theorem le_of_mem_readEnds {limit o e : Nat} {s : Source}
    (h : e ∈ readEnds limit o s) : o < e ∧ e ≤ o + s.content.length := by
  fun_induction readEnds limit o s with
  | case1 o s b bs rest hr ih =>
      have hc := congrArg List.length (content_of_read hr).1
      simp only [List.length_append] at hc
      have hlen : 0 < (b :: bs).length := by simp
      rcases List.mem_cons.1 h with rfl | h
      · omega
      · have := ih h
        omega
  | case2 => simp at h

end Source

end SchemaLedger
