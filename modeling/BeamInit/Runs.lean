import Mathlib

/-! # Runs of a labelled step relation

    The induction every safety result rests on, stated once: a predicate that
    holds at the start and is kept by each step holds at the end of a run.  The
    labels of a run can be constrained, a run can be cut at any of its steps,
    and a run of one relation maps to a run of another along a simulation. -/

namespace Runs

variable {S L T K : Type}

/-- A run from one state to another, with the labels of its steps. -/
inductive Run (step : S → L → S → Prop) : S → List L → S → Prop where
  | nil (s : S) : Run step s [] s
  | cons {s s' s'' : S} {l : L} {ls : List L} :
      step s l s' → Run step s' ls s'' → Run step s (l :: ls) s''

namespace Run

variable {step : S → L → S → Prop} {s s' s'' : S} {l : L} {ls ls' : List L}

theorem single (h : step s l s') : Run step s [l] s' := .cons h (.nil s')

/-- The run of a step function that can take all these steps. -/
theorem of_foldlM {f : S → L → Option S} (h : ls.foldlM f s = some s') :
    Run (fun s l s' => f s l = some s') s ls s' := by
  induction ls generalizing s with
  | nil =>
      cases h
      exact .nil _
  | cons l ls ih =>
      rw [List.foldlM_cons] at h
      obtain ⟨s₁, hstep, hrest⟩ := Option.bind_eq_some_iff.mp h
      exact .cons hstep (ih hrest)

theorem append (h : Run step s ls s') (h' : Run step s' ls' s'') :
    Run step s (ls ++ ls') s'' := by
  induction h with
  | nil _ => exact h'
  | cons hst _ ih => exact .cons hst (ih h')

theorem snoc (h : Run step s ls s') (hst : step s' l s'') : Run step s (ls ++ [l]) s'' :=
  h.append (.single hst)

theorem eq_of_nil (h : Run step s [] s') : s = s' := by
  cases h with
  | nil _ => rfl

/-- A run over `ls ++ ls'` passes through a state between the two. -/
theorem split (h : Run step s (ls ++ ls') s'') :
    ∃ s', Run step s ls s' ∧ Run step s' ls' s'' := by
  induction ls generalizing s with
  | nil => exact ⟨s, .nil s, h⟩
  | cons l ls ih =>
      cases h with
      | cons hst hrest =>
          obtain ⟨s', h1, h2⟩ := ih hrest
          exact ⟨s', .cons hst h1, h2⟩

/-- Every label of a run belongs to a step from a state the run passes through. -/
theorem step_of_mem (h : Run step s ls s'') (hl : l ∈ ls) :
    ∃ pre post s₁ s₂, ls = pre ++ l :: post ∧ Run step s pre s₁ ∧ step s₁ l s₂
      ∧ Run step s₂ post s'' := by
  obtain ⟨pre, post, hls⟩ := List.append_of_mem hl
  rw [hls] at h
  obtain ⟨s₁, h1, h2⟩ := h.split
  cases h2 with
  | cons hst hpost => exact ⟨pre, post, s₁, _, hls, h1, hst, hpost⟩

/-- **The invariant rule**, for runs whose labels all satisfy `Q`. -/
theorem invariant_of {I : S → Prop} {Q : L → Prop}
    (hstep : ∀ {s l s'}, Q l → I s → step s l s' → I s')
    (h : Run step s ls s') (hQ : ∀ l ∈ ls, Q l) (h0 : I s) : I s' := by
  induction h with
  | nil _ => exact h0
  | cons hst _ ih =>
      exact ih (fun l hl => hQ l (List.mem_cons_of_mem _ hl))
        (hstep (hQ _ List.mem_cons_self) h0 hst)

/-- The invariant rule. -/
theorem invariant {I : S → Prop} (hstep : ∀ {s l s'}, I s → step s l s' → I s')
    (h : Run step s ls s') (h0 : I s) : I s' :=
  h.invariant_of (Q := fun _ => True) (fun _ => hstep) (fun _ _ => trivial) h0

/-- The invariant rule for a predicate that also sees the labels so far. -/
theorem history {I : List L → S → Prop}
    (hstep : ∀ {ls s l s'}, I ls s → step s l s' → I (ls ++ [l]) s')
    (h : Run step s ls s') (h0 : I [] s) : I ls s' := by
  have hfrom : ∀ before, I before s → I (before ++ ls) s' := by
    clear h0
    induction h with
    | nil s =>
        intro before hbefore
        rw [List.append_nil]
        exact hbefore
    | @cons s s₁ s₂ l ls hst _ ih =>
        intro before hbefore
        have hrest := ih (before ++ [l]) (hstep hbefore hst)
        rw [List.append_assoc] at hrest
        exact hrest
  exact hfrom [] h0

/-- A measure that every step decreases bounds the length of a run. -/
theorem length_le {I : S → Prop} {f : S → Nat} (hinv : ∀ {s l s'}, I s → step s l s' → I s')
    (hstep : ∀ {s l s'}, I s → step s l s' → f s' < f s) (h : Run step s ls s') (h0 : I s) :
    ls.length + f s' ≤ f s := by
  induction h with
  | nil s => exact Nat.le_of_eq (Nat.zero_add _)
  | cons hst _ ih =>
      have hrest := ih (hinv h0 hst)
      have hfirst := hstep h0 hst
      rw [List.length_cons]
      omega

/-- A relation that is reflexive, transitive and contains every step relates the
    two ends of a run, for runs whose labels all satisfy `Q`. -/
theorem relates_of {R : S → S → Prop} {Q : L → Prop} (hrefl : ∀ s, R s s)
    (htrans : ∀ {a b c}, R a b → R b c → R a c)
    (hstep : ∀ {s l s'}, Q l → step s l s' → R s s') (h : Run step s ls s')
    (hQ : ∀ l ∈ ls, Q l) : R s s' := by
  induction h with
  | nil s => exact hrefl s
  | cons hst _ ih =>
      exact htrans (hstep (hQ _ List.mem_cons_self) hst)
        (ih fun l hl => hQ l (List.mem_cons_of_mem _ hl))

theorem relates {R : S → S → Prop} (hrefl : ∀ s, R s s)
    (htrans : ∀ {a b c}, R a b → R b c → R a c)
    (hstep : ∀ {s l s'}, step s l s' → R s s') (h : Run step s ls s') : R s s' :=
  h.relates_of (Q := fun _ => True) hrefl htrans (fun _ => hstep) (fun _ _ => trivial)

/-- **Simulation**: if every step is matched by a run of the other relation,
    every run is. -/
theorem simulate {step' : T → K → T → Prop} {abs : S → T}
    (hstep : ∀ {s l s'}, step s l s' → ∃ ks, Run step' (abs s) ks (abs s'))
    (h : Run step s ls s') : ∃ ks, Run step' (abs s) ks (abs s') := by
  induction h with
  | nil s => exact ⟨[], .nil _⟩
  | cons hst _ ih =>
      obtain ⟨ks, h1⟩ := hstep hst
      obtain ⟨ks', h2⟩ := ih
      exact ⟨ks ++ ks', h1.append h2⟩

/-- The same run of another relation, when an invariant turns each step into one. -/
theorem map_of {step' : S → L → S → Prop} {I : S → Prop}
    (hstep : ∀ {s l s'}, I s → step s l s' → step' s l s' ∧ I s')
    (h : Run step s ls s') (h0 : I s) : Run step' s ls s' := by
  induction h with
  | nil s => exact .nil s
  | cons hst _ ih =>
      obtain ⟨hst', h1⟩ := hstep h0 hst
      exact .cons hst' (ih h1)

end Run

/-- The steps that meet a condition. -/
def Where (step : S → L → S → Prop) (Q : S → L → S → Prop) (s : S) (l : L) (s' : S) : Prop :=
  step s l s' ∧ Q s l s'

/-- The run itself, of steps that met a condition. -/
theorem Run.of_where {step Q : S → L → S → Prop} {s s' : S} {ls : List L}
    (h : Run (Where step Q) s ls s') : Run step s ls s' :=
  h.map_of (I := fun _ => True) (fun _ hst => ⟨hst.1, trivial⟩) trivial

/-- A run whose labels all make their steps meet the condition. -/
theorem Run.where_of {step Q : S → L → S → Prop} {P : L → Prop} {s s' : S} {ls : List L}
    (hQ : ∀ {s l s'}, P l → Q s l s') (h : Run step s ls s') (hP : ∀ l ∈ ls, P l) :
    Run (Where step Q) s ls s' := by
  induction h with
  | nil s => exact .nil s
  | cons hst _ ih =>
      exact .cons ⟨hst, hQ (hP _ List.mem_cons_self)⟩
        (ih fun l hl => hP l (List.mem_cons_of_mem _ hl))

/-! ## What has held since a step -/

/-- A step from `s` met `B`, and every step since has met `Q`. -/
def Since (step B Q : S → L → S → Prop) (s s' : S) : Prop :=
  ∃ l s₁ ls, step s l s₁ ∧ B s l s₁ ∧ Run (Where step Q) s₁ ls s'

namespace Since

variable {step B Q : S → L → S → Prop} {s s' s'' : S} {l : L}

theorem began (hst : step s l s') (hB : B s l s') : Since step B Q s s' :=
  ⟨l, s', [], hst, hB, .nil s'⟩

theorem went (h : Since step B Q s s') (hst : step s' l s'') (hQ : Q s' l s'') :
    Since step B Q s s'' := by
  obtain ⟨l₀, s₁, ls, hfirst, hB, hrun⟩ := h
  exact ⟨l₀, s₁, _, hfirst, hB, hrun.snoc ⟨hst, hQ⟩⟩

theorem run (h : Since step B Q s s') : ∃ ls, Run step s ls s' := by
  obtain ⟨l₀, s₁, ls, hfirst, -, hrun⟩ := h
  exact ⟨l₀ :: ls, .cons hfirst hrun.of_where⟩

end Since

end Runs
