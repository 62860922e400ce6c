import Mathlib

/-! # Segments — a stream that is split at every separator

    The pieces that a separator ends, and what follows the last separator.  A
    reader that takes the stream in chunks finds the same pieces, since a stream
    that ends with a separator can be split apart from what follows it. -/

namespace Segments

variable {α : Type} [DecidableEq α]

/-- The pieces that are ended by a separator, and the rest. -/
def split (sep : α) : List α → List (List α) × List α
  | [] => ([], [])
  | a :: s =>
      if a = sep then ([] :: (split sep s).1, (split sep s).2)
      else
        match (split sep s).1 with
        | [] => ([], a :: (split sep s).2)
        | piece :: pieces => ((a :: piece) :: pieces, (split sep s).2)

def complete (sep : α) (s : List α) : List (List α) := (split sep s).1

/-- All pieces, the rest among them unless it is empty. -/
def segments (sep : α) (s : List α) : List (List α) :=
  complete sep s ++ if (split sep s).2 = [] then [] else [(split sep s).2]

/-- A separator at the start closes an empty piece. -/
theorem split_cons_sep (sep : α) (s : List α) :
    split sep (sep :: s) = ([] :: (split sep s).1, (split sep s).2) := by
  rw [split, if_pos rfl]

/-- Before the first separator an element belongs to the rest. -/
theorem split_cons_of_nil {sep a : α} {s : List α} (ha : a ≠ sep) (h : (split sep s).1 = []) :
    split sep (a :: s) = ([], a :: (split sep s).2) := by
  rw [split, if_neg ha, h]

/-- With a separator to come an element belongs to the first piece. -/
theorem split_cons_of_cons {sep a : α} {s piece : List α} {pieces : List (List α)} (ha : a ≠ sep)
    (h : (split sep s).1 = piece :: pieces) :
    split sep (a :: s) = ((a :: piece) :: pieces, (split sep s).2) := by
  rw [split, if_neg ha, h]

/-- Without a separator everything is the rest. -/
theorem split_of_not_mem {sep : α} {s : List α} (h : sep ∉ s) : split sep s = ([], s) := by
  induction s with
  | nil => rfl
  | cons a s ih =>
      rw [List.mem_cons, not_or] at h
      have hs := ih h.2
      rw [split_cons_of_nil (Ne.symm h.1) (congrArg Prod.fst hs), hs]

/-- A piece and its separator come off the front. -/
theorem split_piece {sep : α} {piece : List α} (h : sep ∉ piece) (s : List α) :
    split sep (piece ++ sep :: s) = (piece :: (split sep s).1, (split sep s).2) := by
  induction piece with
  | nil => exact split_cons_sep sep s
  | cons a piece ih =>
      rw [List.mem_cons, not_or] at h
      have hs := ih h.2
      rw [List.cons_append, split_cons_of_cons (Ne.symm h.1) (congrArg Prod.fst hs), hs]

/-- **A stream that ends with a separator** is split apart from what follows. -/
theorem split_append {sep : α} {s : List α} (h : (split sep s).2 = []) (t : List α) :
    split sep (s ++ t) = ((split sep s).1 ++ (split sep t).1, (split sep t).2) := by
  induction s with
  | nil => rfl
  | cons a s ih =>
      by_cases ha : a = sep
      · subst ha
        rw [split_cons_sep] at h
        rw [List.cons_append, split_cons_sep, split_cons_sep, ih h]
        rfl
      · cases hpieces : (split sep s).1 with
        | nil =>
            rw [split_cons_of_nil ha hpieces] at h
            cases h
        | cons piece pieces =>
            rw [split_cons_of_cons ha hpieces] at h ⊢
            have hs := ih h
            rw [hpieces] at hs
            rw [List.cons_append, split_cons_of_cons ha (congrArg Prod.fst hs), hs]
            rfl

/-- After a separator the segments of two texts are those of the one and of the other. -/
theorem segments_append {sep : α} {s : List α} (h : (split sep s).2 = []) (t : List α) :
    segments sep (s ++ t) = (split sep s).1 ++ segments sep t := by
  rw [segments, segments, complete, complete, split_append h, List.append_assoc]

/-- A text without a separator is one segment. -/
theorem segments_of_not_mem {sep : α} {s : List α} (h : sep ∉ s) (hne : s ≠ []) :
    segments sep s = [s] := by
  rw [segments, complete, split_of_not_mem h, if_neg hne]
  rfl

/-- The closed pieces come first among the segments. -/
theorem complete_isPrefix_segments (sep : α) (s : List α) : complete sep s <+: segments sep s :=
  List.prefix_append _ _

/-- More of a stream has more pieces. -/
theorem complete_isPrefix_append (sep : α) (s t : List α) :
    complete sep s <+: complete sep (s ++ t) := by
  induction s with
  | nil => exact List.nil_prefix
  | cons a s ih =>
      by_cases ha : a = sep
      · subst ha
        rw [complete, complete, List.cons_append, split_cons_sep, split_cons_sep]
        exact List.cons_prefix_cons.mpr ⟨rfl, ih⟩
      · cases hpieces : (split sep s).1 with
        | nil =>
            rw [complete, split_cons_of_nil ha hpieces]
            exact List.nil_prefix
        | cons piece pieces =>
            obtain ⟨more, hmore⟩ := ih
            have hall : (split sep (s ++ t)).1 = piece :: (pieces ++ more) := by
              rw [← List.cons_append, ← hpieces]
              exact hmore.symm
            rw [complete, complete, List.cons_append, split_cons_of_cons ha hpieces,
              split_cons_of_cons ha hall]
            exact List.prefix_append _ _

end Segments
