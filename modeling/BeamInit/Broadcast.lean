import Mathlib

/-! # Broadcast — a bounded channel with slow receivers

    A channel keeps the last `capacity` values sent.  A receiver is its position
    among all the values sent: it gets the next one, waits, is told that the
    sender is gone once it has got them all, or is told how many it has missed.
    What a receiver gets when its source only sends changes is the sequence of the
    source's values with equal neighbours collapsed. -/

namespace Broadcast

variable {α : Type}

/-- The values sent so far, and whether the sender is gone. -/
structure Channel (α : Type) where
  sent : List α
  closed : Bool

inductive RecvError where
  | closed
  | lagged (skipped : Nat)
deriving DecidableEq

namespace Channel

variable {channel : Channel α} {capacity position : Nat}

/-- The values a receiver at this position has not got yet. -/
def unread (channel : Channel α) (position : Nat) : List α := channel.sent.drop position

/-- What a receiver gets next, with its new position, unless it has to wait. -/
def recv (capacity : Nat) (channel : Channel α) (position : Nat) : Option (Except RecvError α × Nat) :=
  if (channel.unread position).length > capacity then
    some (.error (.lagged ((channel.unread position).length - capacity)),
      channel.sent.length - capacity)
  else
    match channel.unread position with
    | value :: _ => some (.ok value, position + 1)
    | [] => if channel.closed then some (.error .closed, position) else none

/-- The next value, as long as the receiver keeps up. -/
theorem recv_value {value : α} {rest : List α} (h : channel.unread position = value :: rest)
    (hroom : (channel.unread position).length ≤ capacity) :
    channel.recv capacity position = some (.ok value, position + 1)
      ∧ channel.unread (position + 1) = rest := by
  constructor
  · rw [recv]
    rw [if_neg (Nat.not_lt.mpr hroom), h]
  · have hdrop : channel.unread (position + 1) = (channel.unread position).drop 1 :=
      (List.drop_drop ..).symm
    rw [hdrop, h]
    rfl

/-- A receiver that has got everything waits, or learns that the sender is gone. -/
theorem recv_nothing (h : channel.unread position = []) :
    channel.recv capacity position
      = if channel.closed then some (.error .closed, position) else none := by
  rw [recv]
  rw [h]
  exact if_neg (Nat.not_lt_zero capacity)

end Channel

/-! ## Equal neighbours collapsed -/

section Collapse

variable [DecidableEq α]

theorem destutter'_concat (first : α) (l : List α) (a : α) :
    (l ++ [a]).destutter' (· ≠ ·) first
      = l.destutter' (· ≠ ·) first ++ if (first :: l).getLast? = some a then [] else [a] := by
  induction l generalizing first with
  | nil =>
      by_cases h : first = a
      · rw [List.nil_append, List.destutter'_singleton, if_neg (not_not.mpr h), h]
        rw [List.getLast?_singleton, if_pos rfl]
        rfl
      · have hne : [first].getLast? ≠ some a := fun heq => h (Option.some.inj heq)
        rw [List.nil_append, List.destutter'_singleton, if_pos h, if_neg hne]
        rfl
  | cons b l ih =>
      by_cases h : first = b
      · subst h
        rw [List.cons_append, List.destutter'_cons_neg _ (not_not.mpr rfl),
          List.destutter'_cons_neg _ (not_not.mpr rfl), ih, List.getLast?_cons_cons]
      · rw [List.cons_append, List.destutter'_cons_pos _ h, List.destutter'_cons_pos _ h, ih,
          List.getLast?_cons_cons, List.cons_append]

/-- Adding a value to a sequence adds it to what a receiver gets, if it is a change. -/
theorem destutter_concat {l : List α} {last : α} (h : l.getLast? = some last) (a : α) :
    (l ++ [a]).destutter (· ≠ ·)
      = if last = a then l.destutter (· ≠ ·) else l.destutter (· ≠ ·) ++ [a] := by
  cases l with
  | nil => exact nomatch h
  | cons first l =>
      rw [List.cons_append, List.destutter_cons', List.destutter_cons', destutter'_concat, h]
      by_cases hlast : last = a
      · rw [if_pos hlast, if_pos (congrArg some hlast), List.append_nil]
      · rw [if_neg hlast, if_neg fun heq => hlast (Option.some.inj heq)]

/-- Collapsing keeps the first value with a property. -/
theorem find?_destutter (p : α → Bool) (l : List α) :
    (l.destutter (· ≠ ·)).find? p = l.find? p := by
  have hfrom : ∀ (first : α) (l : List α),
      (l.destutter' (· ≠ ·) first).find? p = (first :: l).find? p := by
    intro first l
    induction l generalizing first with
    | nil => rfl
    | cons b l ih =>
        by_cases h : first = b
        · subst h
          rw [List.destutter'_cons_neg _ (not_not.mpr rfl), ih]
          by_cases hp : p first = true
          · rw [List.find?_cons_of_pos hp, List.find?_cons_of_pos hp]
          · rw [List.find?_cons_of_neg hp, List.find?_cons_of_neg hp, List.find?_cons_of_neg hp]
        · rw [List.destutter'_cons_pos _ h]
          by_cases hp : p first = true
          · rw [List.find?_cons_of_pos hp, List.find?_cons_of_pos hp]
          · rw [List.find?_cons_of_neg hp, List.find?_cons_of_neg hp, ih]
  cases l with
  | nil => rfl
  | cons first l => exact hfrom first l

end Collapse

end Broadcast
