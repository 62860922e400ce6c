import Mathlib.Data.List.DropRight
import Mathlib.Data.Stream.Init

/-! # Streaks — how many elements in a row meet a predicate

    The streak of a list is the length of its longest end on which the predicate
    holds.  An element that does not meet it breaks the streak; the first prefix
    whose streak is long enough is where a counter of it reaches its limit. -/

namespace Streaks

variable {α : Type} {p : α → Bool} {k : Nat} {l s : List α} {a : α}

/-- How many elements at the end of the list meet the predicate. -/
def streak (p : α → Bool) (l : List α) : Nat := (l.rtakeWhile p).length

@[simp] theorem streak_nil : streak p ([] : List α) = 0 := rfl

/-- One more element lengthens the streak at the end, or ends it. -/
theorem streak_concat (p : α → Bool) (l : List α) (a : α) :
    streak p (l ++ [a]) = if p a = true then streak p l + 1 else 0 := by
  rw [streak, List.rtakeWhile_concat]
  by_cases ha : p a = true
  · rw [if_pos ha, if_pos ha, List.length_append]
    rfl
  · rw [if_neg ha, if_neg ha]
    rfl

/-- An element with the property lengthens the streak. -/
theorem streak_concat_pos (l : List α) (ha : p a = true) : streak p (l ++ [a]) = streak p l + 1 := by
  rw [streak_concat, if_pos ha]

/-- An element without the property ends the streak. -/
theorem streak_concat_neg (l : List α) (ha : p a = false) : streak p (l ++ [a]) = 0 := by
  rw [streak_concat, if_neg (by rw [ha]; exact Bool.false_ne_true)]

/-! ## The first long streak -/

/-- No prefix ends with a streak of `k`. -/
def NoStreak (p : α → Bool) (k : Nat) (l : List α) : Prop := ∀ s, s <+: l → streak p s < k

/-- The list ends with a streak of `k`, and no shorter prefix of it does. -/
def FirstStreak (p : α → Bool) (k : Nat) (l : List α) : Prop :=
  k ≤ streak p l ∧ ∀ s, s <+: l → s ≠ l → streak p s < k

/-- Nothing has no streak of positive length. -/
theorem noStreak_nil (hk : 0 < k) : NoStreak p k ([] : List α) := by
  intro s hs
  rw [List.prefix_nil.mp hs, streak_nil]
  exact hk

/-- A list without a streak has none in a prefix. -/
theorem NoStreak.mono (h : NoStreak p k l) (hs : s <+: l) : NoStreak p k s :=
  fun _ ht => h _ (ht.trans hs)

/-- A longer list has no streak if the shorter one has none and none ends here. -/
theorem noStreak_concat : NoStreak p k (l ++ [a]) ↔ NoStreak p k l ∧ streak p (l ++ [a]) < k := by
  constructor
  · intro h
    exact ⟨h.mono (List.prefix_append _ _), h _ List.prefix_rfl⟩
  · rintro ⟨hl, hlast⟩ s hs
    rcases List.prefix_concat_iff.mp hs with rfl | hs
    · exact hlast
    · exact hl s hs

/-- Once the first streak is complete there is one in all that follows. -/
theorem FirstStreak.not_noStreak (h : FirstStreak p k s) (hs : s <+: l) : ¬ NoStreak p k l :=
  fun hno => Nat.not_le_of_lt (hno s hs) h.1

/-- The first streak is complete with the element that brings it to its length. -/
theorem firstStreak_concat : FirstStreak p k (l ++ [a]) ↔ NoStreak p k l ∧ k ≤ streak p (l ++ [a]) := by
  constructor
  · rintro ⟨hlast, hshorter⟩
    refine ⟨fun s hs => hshorter s (hs.trans (List.prefix_append _ _)) fun heq => ?_, hlast⟩
    have hlen := hs.length_le
    rw [heq, List.length_append, List.length_singleton] at hlen
    omega
  · rintro ⟨hno, hlast⟩
    refine ⟨hlast, fun s hs hne => ?_⟩
    rcases List.prefix_concat_iff.mp hs with rfl | hs
    · exact absurd rfl hne
    · exact hno s hs

/-- The element that ends having no long streak completes the first one. -/
theorem NoStreak.firstStreak (hno : NoStreak p k l) (hmore : ¬ NoStreak p k (l ++ [a])) :
    FirstStreak p k (l ++ [a]) := by
  refine firstStreak_concat.mpr ⟨hno, Nat.le_of_not_lt fun hlast => hmore ?_⟩
  exact noStreak_concat.mpr ⟨hno, hlast⟩

/-- Where there is a streak there is a first one. -/
theorem exists_firstStreak (h : ¬ NoStreak p k l) : ∃ s, s <+: l ∧ FirstStreak p k s := by
  induction l using List.reverseRecOn with
  | nil =>
      obtain ⟨s, hs, hlong⟩ : ∃ s, s <+: [] ∧ ¬ streak p s < k := by
        simpa only [NoStreak, not_forall, exists_prop] using h
      obtain rfl := List.prefix_nil.mp hs
      refine ⟨[], hs, Nat.le_of_not_lt hlong, fun s hs hne => ?_⟩
      exact absurd (List.prefix_nil.mp hs) hne
  | append_singleton l a ih =>
      by_cases hl : NoStreak p k l
      · exact ⟨l ++ [a], List.prefix_rfl, hl.firstStreak h⟩
      · obtain ⟨s, hs, hfirst⟩ := ih hl
        exact ⟨s, hs.trans (List.prefix_append _ _), hfirst⟩

/-- A sequence without an end has a first long streak, or none at all. -/
theorem firstStreak_or_noStreak (p : α → Bool) (k : Nat) (s : Stream' α) :
    (∃ n, FirstStreak p k (s.take n)) ∨ ∀ n, NoStreak p k (s.take n) := by
  by_cases hall : ∀ n, NoStreak p k (s.take n)
  · exact .inr hall
  · obtain ⟨n, hn⟩ := not_forall.mp hall
    obtain ⟨first, hfirst, hstreak⟩ := exists_firstStreak hn
    obtain ⟨i, rfl⟩ : ∃ i, first = s.take i := by
      refine ⟨min n first.length, ?_⟩
      rw [← Stream'.take_take]
      exact List.prefix_iff_eq_take.mp hfirst
    exact .inl ⟨i, hstreak⟩

end Streaks
