import Mathlib

/-! # A fair mutex — a lock that is handed on in the order it was asked for

    The mutex of a cooperative runtime.  A party that asks for it gets it at
    once if it is free and waits in line otherwise; on release it goes straight
    to the head of the line, who owns it before running again.  A free mutex
    with a line cannot be built. -/

structure FairMutex (P : Type) where
  owner : Option P
  waiting : List P
  idle : owner = none → waiting = []

namespace FairMutex

variable {P : Type}

def free : FairMutex P := ⟨none, [], fun _ => rfl⟩

/-- The head of the line gets the mutex, if there is one. -/
def release (m : FairMutex P) : FairMutex P :=
  match m.waiting with
  | [] => free
  | next :: rest => ⟨some next, rest, fun h => nomatch h⟩

theorem release_of_waiting {m : FairMutex P} (h : m.waiting = []) : m.release = free := by
  rw [release, h]

section Poll

variable [DecidableEq P]

/-- A party asks for the mutex, or asks again: whether it owns it now. -/
def poll (m : FairMutex P) (p : P) : Bool × FairMutex P :=
  match m.owner with
  | none => (true, ⟨some p, m.waiting, fun h => nomatch h⟩)
  | some q =>
      if q = p then (true, m)
      else (false, ⟨some q, if p ∈ m.waiting then m.waiting else m.waiting ++ [p],
        fun h => nomatch h⟩)

/-- A party is gone: what it owned is released, and it leaves the line. -/
def forget (m : FairMutex P) (p : P) : FairMutex P :=
  if m.owner = some p then { m with waiting := m.waiting.filter (· ≠ p),
                                    idle := fun h => by rw [m.idle h]; rfl }.release
  else ⟨m.owner, m.waiting.filter (· ≠ p), fun h => by rw [m.idle h]; rfl⟩

/-- A free mutex is taken by the first that polls. -/
theorem poll_free {m : FairMutex P} (h : m.owner = none) (p : P) :
    (m.poll p).1 = true ∧ (m.poll p).2.owner = some p ∧ (m.poll p).2.waiting = [] := by
  rw [poll, h]
  exact ⟨rfl, rfl, m.idle h⟩

/-- A party that gets the mutex had it already, or took it when it was free. -/
theorem poll_true {m m' : FairMutex P} {p : P} (h : m.poll p = (true, m')) :
    (m.owner = none ∨ m.owner = some p) ∧ m'.owner = some p := by
  rw [poll] at h
  cases howner : m.owner with
  | none =>
      rw [howner] at h
      cases h
      exact ⟨.inl rfl, rfl⟩
  | some q =>
      rw [howner] at h
      dsimp only at h
      by_cases hq : q = p
      · rw [if_pos hq] at h
        cases h
        exact ⟨.inr (by rw [hq]), by rw [howner, hq]⟩
      · rw [if_neg hq] at h
        exact nomatch h

/-- A party that does not get it finds another owner, who stays. -/
theorem poll_false {m m' : FairMutex P} {p : P} (h : m.poll p = (false, m')) :
    ∃ q, q ≠ p ∧ m.owner = some q ∧ m'.owner = some q := by
  rw [poll] at h
  cases howner : m.owner with
  | none => rw [howner] at h; exact nomatch h
  | some q =>
      rw [howner] at h
      dsimp only at h
      by_cases hq : q = p
      · rw [if_pos hq] at h
        exact nomatch h
      · rw [if_neg hq] at h
        cases h
        exact ⟨q, hq, rfl, rfl⟩

/-- Forgetting a task that waits leaves the owner. -/
theorem forget_owner {m : FairMutex P} {p : P} (h : m.owner ≠ some p) :
    (m.forget p).owner = m.owner := by
  rw [forget, if_neg h]

/-- Forgetting the only party that may own a mutex nobody waits for leaves it free. -/
theorem forget_free {m : FairMutex P} {p : P} (hwaiting : m.waiting = [])
    (howner : m.owner = none ∨ m.owner = some p) : m.forget p = free := by
  rw [forget]
  rcases howner with hnone | hsome
  · rw [if_neg (by rw [hnone]; exact nofun), free]
    simp only [hnone, hwaiting, List.filter_nil]
  · rw [if_pos hsome, release_of_waiting]
    show m.waiting.filter _ = []
    rw [hwaiting]
    rfl

end Poll

end FairMutex
