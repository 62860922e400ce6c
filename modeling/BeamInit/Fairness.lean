import BeamInit.Runs

/-! # Fairness — what an infinite run gets done

    An execution goes on for ever: at each instant it takes a step or rests.
    Two rules turn fairness into progress.  What is given up only for a goal, and
    is not held for ever, ends in the goal; and what gets nearer to a goal again
    and again reaches it. -/

namespace Fairness

open Runs

variable {S L : Type}

/-- A step, or no change. -/
def Moves (step : S → L → S → Prop) (s : S) : Option L → S → Prop
  | some l, s' => step s l s'
  | none, s' => s' = s

/-- An infinite run that may rest. -/
structure Execution (step : S → L → S → Prop) where
  state : Nat → S
  label : Nat → Option L
  moves : ∀ i, Moves step (state i) (label i) (state (i + 1))

/-! ## Eventually -/

/-- At the instant `i` or later. -/
def Eventually (P : Nat → Prop) (i : Nat) : Prop := ∃ j, i ≤ j ∧ P j

section Rules

variable {P Q : Nat → Prop} {i : Nat}

theorem Eventually.now (h : P i) : Eventually P i := ⟨i, Nat.le_refl i, h⟩

theorem Eventually.of_le {j : Nat} (hij : i ≤ j) (h : Eventually P j) : Eventually P i := by
  obtain ⟨k, hjk, hk⟩ := h
  exact ⟨k, Nat.le_trans hij hjk, hk⟩

theorem Eventually.mono (h : Eventually P i) (himp : ∀ j, i ≤ j → P j → Q j) : Eventually Q i := by
  obtain ⟨j, hij, hj⟩ := h
  exact ⟨j, hij, himp j hij hj⟩

/-- There is a first time. -/
theorem Eventually.first (h : Eventually P i) :
    ∃ j, i ≤ j ∧ P j ∧ ∀ k, i ≤ k → k < j → ¬ P k := by
  classical
  have hspec := Nat.find_spec h
  refine ⟨Nat.find h, hspec.1, hspec.2, fun k hik hk hp => ?_⟩
  exact Nat.find_min h hk ⟨hik, hp⟩

/-- What leads to a goal may be led to first. -/
theorem Eventually.trans (h : Eventually P i) (hnext : ∀ j, i ≤ j → P j → Eventually Q j) :
    Eventually Q i := by
  obtain ⟨j, hij, hj⟩ := h
  exact .of_le hij (hnext j hij hj)

/-- Kept from one instant to the next, kept for ever. -/
theorem always_of_next (hnext : ∀ j, i ≤ j → P j → P (j + 1)) (h : P i) : ∀ j, i ≤ j → P j :=
  Nat.le_induction h hnext

/-- **The unless rule**: `P` is given up only for `Q`, and is not held for ever. -/
theorem eventually_of_unless (hkeep : ∀ j, i ≤ j → P j → P (j + 1) ∨ Q (j + 1))
    (hleave : ∃ j, i ≤ j ∧ ¬ P j) (h : P i) : Eventually Q i := by
  by_contra hnever
  obtain ⟨j, hij, hj⟩ := hleave
  refine hj (always_of_next (fun k hik hk => ?_) h j hij)
  exact (hkeep k hik hk).resolve_right fun hq => hnever ⟨k + 1, Nat.le_succ_of_le hik, hq⟩

/-- **The rule of descent**: wherever `P` holds the goal comes, or `P` comes again
    with a smaller rank. -/
theorem eventually_of_descent (rank : Nat → Nat)
    (hdown : ∀ j, i ≤ j → P j → Eventually (fun k => Q k ∨ (P k ∧ rank k < rank j)) j)
    (h : P i) : Eventually Q i := by
  have hall : ∀ n j, i ≤ j → P j → rank j = n → Eventually Q j := by
    intro n
    induction n using Nat.strong_induction_on with
    | _ n ih =>
        rintro j hij hj rfl
        refine (hdown j hij hj).trans fun k hjk hk => ?_
        rcases hk with hq | ⟨hp, hlt⟩
        · exact .now hq
        · exact ih _ hlt k (Nat.le_trans hij hjk) hp rfl
  exact hall _ i (Nat.le_refl i) h rfl

end Rules

/-! ## Executions and runs -/

namespace Execution

variable {step : S → L → S → Prop} (e : Execution step)

/-- The steps between two instants are a run. -/
theorem run {i j : Nat} (hij : i ≤ j) : ∃ ls, Run step (e.state i) ls (e.state j) := by
  induction j, hij using Nat.le_induction with
  | base => exact ⟨[], .nil _⟩
  | succ j _ ih =>
      obtain ⟨ls, hrun⟩ := ih
      have hmove := e.moves j
      cases hlabel : e.label j with
      | none =>
          rw [hlabel] at hmove
          rw [show e.state (j + 1) = e.state j from hmove]
          exact ⟨ls, hrun⟩
      | some l =>
          rw [hlabel] at hmove
          exact ⟨_, hrun.snoc hmove⟩

/-- What each step keeps holds at every later instant. -/
theorem keeps {I : S → Prop} (hstep : ∀ {s l s'}, I s → step s l s' → I s') {i j : Nat}
    (hij : i ≤ j) (h : I (e.state i)) : I (e.state j) := by
  obtain ⟨ls, hrun⟩ := e.run hij
  exact hrun.invariant hstep h

/-- What no step undoes before the instant `j` still holds there. -/
theorem holds_until {P : S → Prop} {i j : Nat} (hij : i ≤ j) (h : P (e.state i))
    (hkeep : ∀ k, i ≤ k → k < j → ∀ l, e.label k = some l → step (e.state k) l (e.state (k + 1)) →
      P (e.state k) → P (e.state (k + 1))) : P (e.state j) := by
  induction j, hij using Nat.le_induction with
  | base => exact h
  | succ j hij ih =>
      have hj : P (e.state j) :=
        ih fun k hik hk => hkeep k hik (Nat.lt_succ_of_lt hk)
      have hmove := e.moves j
      cases hlabel : e.label j with
      | none =>
          rw [hlabel] at hmove
          rw [show e.state (j + 1) = e.state j from hmove]
          exact hj
      | some l =>
          rw [hlabel] at hmove
          exact hkeep j hij (Nat.lt_succ_self j) l hlabel hmove hj

/-- The unless rule, from what a step does. -/
theorem leaves {P Q : S → Prop} {i : Nat} (hstep : ∀ {s l s'}, P s → step s l s' → P s' ∨ Q s')
    (hleave : ∃ j, i ≤ j ∧ ¬ P (e.state j)) (h : P (e.state i)) :
    Eventually (fun j => Q (e.state j)) i := by
  refine eventually_of_unless (P := fun j => P (e.state j)) (fun j _ hj => ?_) hleave h
  have hmove := e.moves j
  cases hlabel : e.label j with
  | none =>
      rw [hlabel] at hmove
      rw [show e.state (j + 1) = e.state j from hmove]
      exact Or.inl hj
  | some l =>
      rw [hlabel] at hmove
      exact hstep hj hmove

/-- The image of an execution whose steps are steps of another system, or no change. -/
def image {S' L' : Type} {step' : S' → L' → S' → Prop} (f : S → S') (g : L → Option L')
    (hstep : ∀ {s l s'}, step s l s' → Moves step' (f s) (g l) (f s')) : Execution step' where
  state i := f (e.state i)
  label i := (e.label i).bind g
  moves i := by
    have hmove := e.moves i
    cases hlabel : e.label i with
    | none =>
        rw [hlabel] at hmove
        exact congrArg f hmove
    | some l =>
        rw [hlabel] at hmove
        exact hstep hmove

end Execution

/-- A finite run, and rest. -/
theorem exists_execution {step : S → L → S → Prop} {s s' : S} {ls : List L}
    (h : Run step s ls s') :
    ∃ e : Execution step, e.state 0 = s ∧ ∀ i, ls.length ≤ i → e.state i = s' := by
  induction h with
  | nil s => exact ⟨⟨fun _ => s, fun _ => none, fun _ => rfl⟩, rfl, fun _ _ => rfl⟩
  | @cons s s₁ s' l ls hst hrun ih =>
      obtain ⟨e, hstart, hrest⟩ := ih
      refine ⟨⟨fun i => Nat.casesOn i s e.state, fun i => Nat.casesOn i (some l) e.label, ?_⟩,
        rfl, ?_⟩
      · intro i
        cases i with
        | zero =>
            show step s l (e.state 0)
            rw [hstart]
            exact hst
        | succ i => exact e.moves i
      · intro i hi
        cases i with
        | zero => exact absurd hi (Nat.not_succ_le_zero _)
        | succ i => exact hrest i (Nat.le_of_succ_le_succ hi)

end Fairness
