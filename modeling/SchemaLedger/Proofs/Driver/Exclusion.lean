import SchemaLedger.Lock
/-!
# Parties at a lock

A lock moves in single steps, so whatever several parties ask of it comes to one
sequence of requests. In each such sequence the requests that succeed are taking and
giving back in turn, `Run.alternate`. A party is inside if the last of its requests
that succeeded took the lock. If only those who are inside give the lock back, then
it is held exactly while somebody is inside, and at most one party is.
-/

namespace SchemaLedger.Lock

inductive Request where
  | acquire
  | release
  deriving DecidableEq, Repr

def perform (l : Lock) : Request → Except LockError Unit × Lock
  | .acquire => l.acquire
  | .release => l.release

/-- A request that a party has made, and whether it succeeded. -/
structure Event (ι : Type) where
  caller : ι
  request : Request
  ok : Bool
  deriving DecidableEq, Repr

variable {ι : Type}

/-- Runs of requests by any parties at a lock that is free at first, with their
events, latest first. -/
inductive Run : List (Event ι) → Lock → Prop
  | start : Run [] {}
  | call {events : List (Event ι)} {l : Lock} (i : ι) (request : Request) :
      Run events l →
      Run (⟨i, request, (l.perform request).1.isOk⟩ :: events)
        (l.perform request).2

/-- The requests that succeeded, latest first. -/
def successes (events : List (Event ι)) : List Request :=
  (events.filter (·.ok)).map (·.request)

/-- The last request of a party that succeeded took the lock. -/
def Inside [DecidableEq ι] (i : ι) : List (Event ι) → Prop
  | [] => False
  | e :: earlier =>
    if e.caller = i ∧ e.ok = true then e.request = .acquire else Inside i earlier

/-- Whoever has given the lock back was inside. -/
def Disciplined [DecidableEq ι] : List (Event ι) → Prop
  | [] => True
  | e :: earlier =>
    (e.request = .release → e.ok = true → Inside e.caller earlier) ∧
      Disciplined earlier

theorem acquire_of_held {l : Lock} (h : l.held = true) :
    l.acquire = (.error .alreadyHeld, l) := if_pos h

theorem acquire_of_free {l : Lock} (h : l.held = false) :
    l.acquire = (.ok (), ⟨true⟩) := if_neg (by simp [h])

theorem release_of_held {l : Lock} (h : l.held = true) :
    l.release = (.ok (), ⟨false⟩) := if_pos h

theorem release_of_free {l : Lock} (h : l.held = false) :
    l.release = (.error .notHeld, l) := if_neg (by simp [h])

theorem acquire_spec (l : Lock) :
    (l.acquire.1 = .error .alreadyHeld ↔ l.held = true) ∧
      (l.acquire.1 = .ok () ↔ l.held = false) ∧ l.acquire.2.held = true := by
  cases h : l.held with
  | true => simp [acquire_of_held h, h]
  | false => simp [acquire_of_free h]

theorem release_spec (l : Lock) :
    (l.release.1 = .error .notHeld ↔ l.held = false) ∧
      (l.release.1 = .ok () ↔ l.held = true) ∧ l.release.2.held = false := by
  cases h : l.held with
  | true => simp [release_of_held h]
  | false => simp [release_of_free h, h]

theorem perform_isOk_iff (l : Lock) (request : Request) :
    (l.perform request).1.isOk = true ↔
      l.held = decide (request = .release) := by
  cases h : l.held <;> cases request <;>
    simp [perform, acquire, release, h, Except.isOk, Except.toBool]

theorem held_perform (l : Lock) (request : Request) :
    (l.perform request).2.held = decide (request = .acquire) := by
  cases h : l.held <;> cases request <;> simp [perform, acquire, release, h]

theorem successes_cons_of_ok {e : Event ι} (h : e.ok = true)
    (events : List (Event ι)) :
    successes (e :: events) = e.request :: successes events := by
  rw [successes, List.filter_cons_of_pos h, List.map_cons]
  rfl

theorem successes_cons_of_not_ok {e : Event ι} (h : e.ok = false)
    (events : List (Event ι)) : successes (e :: events) = successes events := by
  rw [successes, List.filter_cons_of_neg (by simp [h])]
  rfl

variable {events : List (Event ι)} {l : Lock}

/-- The requests that succeed take the lock and give it back in turn, the first of
them takes it, and it is held while one more has taken it. -/
theorem Run.alternate (h : Run events l) :
    (l.held = true ↔ (successes events).length % 2 = 1) ∧
      ∀ (n : Nat) (request : Request), (successes events).reverse[n]? = some request →
        (request = .acquire ↔ n % 2 = 0) := by
  induction h with
  | start => exact ⟨by simp [successes], nofun⟩
  | @call events l i request h ih =>
      obtain ⟨hheld, halternate⟩ := ih
      have hok := perform_isOk_iff l request
      rw [held_perform]
      cases hresult : (l.perform request).1.isOk with
      | false =>
          rw [successes_cons_of_not_ok rfl]
          refine ⟨?_, halternate⟩
          rw [hresult] at hok
          rw [← hheld]
          cases request <;> simp_all
      | true =>
          rw [successes_cons_of_ok rfl, List.length_cons, List.reverse_cons]
          have hbefore := hok.1 hresult
          have hparity : request = .acquire ↔ (successes events).length % 2 = 0 := by
            cases request <;> simp_all
          refine ⟨?_, fun n other hother => ?_⟩
          · rw [decide_eq_true_iff, hparity]
            omega
          · rw [List.getElem?_append, List.length_reverse] at hother
            split at hother
            · exact halternate n other hother
            · next hn =>
                obtain ⟨hlt, rfl⟩ := List.getElem?_eq_some_iff.1 hother
                obtain rfl : n = (successes events).length := by
                  simp only [List.length_singleton] at hlt
                  omega
                simpa using hparity

variable [DecidableEq ι]

theorem inside_cons_of_not_ok {e : Event ι} (h : e.ok = false) (i : ι)
    (earlier : List (Event ι)) : Inside i (e :: earlier) ↔ Inside i earlier := by
  rw [Inside, if_neg (by simp [h])]

theorem inside_cons_of_ok {e : Event ι} (h : e.ok = true) (i : ι)
    (earlier : List (Event ι)) :
    Inside i (e :: earlier) ↔
      if e.caller = i then e.request = .acquire else Inside i earlier := by
  rw [Inside]
  by_cases hi : e.caller = i
  · rw [if_pos ⟨hi, h⟩, if_pos hi]
  · rw [if_neg (by simp [hi]), if_neg hi]

/-- If only those who are inside give the lock back, it is held exactly while
somebody is inside, and then nobody else is. -/
theorem Run.inside (h : Run events l) (hdisciplined : Disciplined events) :
    (l.held = true ↔ ∃ i, Inside i events) ∧
      ∀ i j, Inside i events → Inside j events → i = j := by
  induction h with
  | start => exact ⟨⟨nofun, nofun⟩, nofun⟩
  | @call events l caller request h ih =>
      obtain ⟨hrelease, hearlier⟩ := hdisciplined
      obtain ⟨hheld, hone⟩ := ih hearlier
      have hok := perform_isOk_iff l request
      rw [held_perform]
      cases hresult : (l.perform request).1.isOk with
      | false =>
          simp only [inside_cons_of_not_ok]
          refine ⟨?_, hone⟩
          rw [hresult] at hok
          rw [← hheld]
          cases request <;> simp_all
      | true =>
          simp only [inside_cons_of_ok]
          have hbefore := hok.1 hresult
          cases request with
          | acquire =>
              -- Nobody was inside before.
              have hnobody : ∀ i, ¬ Inside i events := by
                intro i hi
                rw [hheld.2 ⟨i, hi⟩] at hbefore
                cases hbefore
              refine ⟨⟨fun _ => ⟨caller, by simp⟩, fun _ => rfl⟩,
                fun i j hi hj => ?_⟩
              have honly : ∀ k, (if caller = k then Request.acquire = .acquire
                  else Inside k events) → caller = k := by
                intro k hk
                by_cases hcaller : caller = k
                · exact hcaller
                · rw [if_neg hcaller] at hk
                  exact absurd hk (hnobody k)
              exact (honly i hi).symm.trans (honly j hj)
          | release =>
              have hcaller := hrelease rfl hresult
              have hnobody : ∀ i, ¬ (if caller = i then Request.release = .acquire
                  else Inside i events) := by
                intro i hi
                by_cases hne : caller = i
                · rw [if_pos hne] at hi
                  cases hi
                · rw [if_neg hne] at hi
                  exact hne (hone caller i hcaller hi)
              exact ⟨⟨nofun, fun ⟨i, hi⟩ => absurd hi (hnobody i)⟩,
                fun i j hi => absurd hi (hnobody i)⟩

end SchemaLedger.Lock
