import BeamInit.Consistency

/-! # Signals — only unreaped children are signalled

    A signal or a monitor command goes to the process its service holds at that
    moment, hence to a child that `waitpid` has not returned. -/

namespace BeamSignals

open BeamApi BeamOs BeamService BeamManager BeamMainLoop BeamLifecycle BeamOperations
open BeamRefinement BeamConsistency Runs

/-- The process a signal or a monitor command is sent to. -/
def signalled : Effect → Option ServiceProcess
  | .kill process _ => some process
  | .monitor process _ => some process
  | _ => none

/-- Every signal of the trace went to a child that was unreaped at that point. -/
def SignalsLive (trace : List Effect) : Prop :=
  ∀ pre e post, trace = pre ++ e :: post → ∀ process ∈ signalled e, process ∈ unreaped pre

def isSignal (e : Effect) : Bool := (signalled e).isSome

/-- Either nothing is signalled, or only `held` is and no child comes or goes. -/
def SignalsOnly (held : Option ServiceProcess) (out : List Effect) : Prop :=
  Lacks isSignal out
    ∨ Lacks touchesChildren out ∧ ∀ e ∈ out, ∀ process ∈ signalled e, held = some process

/-- A start signals nobody. -/
theorem start_lacks_signal {name : String} {reason : StartReason} {s s' : Service}
    {probe : Option AbortHandle} {out : List Effect} (h : Start name reason s probe out s') :
    Lacks isSignal out := by
  have hsink : ∀ {sink : List Effect}, (∀ e ∈ sink, isSink e = true) → Lacks isSignal sink := by
    intro sink hsink e hmem
    have := hsink e hmem
    cases e <;> first | rfl | exact nomatch this
  cases h with
  | running _ _ _ hs => exact (Lacks.cons rfl (hsink hs)).append (.cons rfl (lacks_probe rfl))
  | failed _ hs => exact (Lacks.cons rfl (hsink hs)).append (.cons rfl .nil)
  | noPty _ => exact .cons rfl .nil

/-- A signal goes to the process it is sent to. -/
theorem mem_sentEffects {e : Effect} {process : ServiceProcess} {sig : Int}
    (h : e ∈ sentEffects process sig) : ∀ p ∈ signalled e, some process = some p := by
  rw [sentEffects] at h
  cases htx : process.monitorTx with
  | some _ =>
      rw [htx] at h
      obtain rfl := List.mem_singleton.mp h
      exact fun p hp => hp
  | none =>
      rw [htx] at h
      obtain rfl := List.mem_singleton.mp h
      exact fun p hp => hp

/-- Where nothing is a signal, every signal goes where one likes. -/
theorem signals_of_lacks {out : List Effect} (held : Option ServiceProcess)
    (h : Lacks isSignal out) : ∀ e ∈ out, ∀ process ∈ signalled e, held = some process := by
  intro e hmem process hp
  have := h e hmem
  rw [isSignal] at this
  rw [hp] at this
  exact nomatch this

/-- **A transition signals only the process its entry holds.** -/
theorem transition_signals {shutdown : Bool} {name : String} {action : Action}
    {entry entry' : Option Service} {out : List Effect}
    (h : Transition shutdown name action entry out entry') : SignalsOnly (heldBy entry) out := by
  have hprobe : ∀ task, Lacks isSignal (abortTask .probeAborted task) := lacks_abort fun _ => rfl
  have htimer : ∀ task, Lacks isSignal (abortTask .timerAborted task) := lacks_abort fun _ => rfl
  have hquiet : ∀ task, Lacks touchesChildren (abortTask .probeAborted task) :=
    lacks_abort fun _ => rfl
  cases h with
  | create _ _ | keep _ | stopDead _ _ | merge _ _ _ | log _ => exact Or.inl .nil
  | pruneDead _ => exact Or.inl (lacks_dropped (fun _ => rfl) _)
  | start _ _ hstart | restartDead _ _ hstart => exact Or.inl (start_lacks_signal hstart)
  | signal hp hout =>
      rw [heldBy_some, hp]
      rcases hout with ⟨cmd, rfl⟩ | ⟨sig, rfl⟩
      · refine Or.inr ⟨.cons rfl .nil, fun e hmem => ?_⟩
        rw [List.mem_singleton.mp hmem]
        exact fun p hp => hp
      · exact Or.inr ⟨quiet_sent _ _, fun e hmem => mem_sentEffects hmem⟩
  | freeze hst _ =>
      rw [heldBy_some, hst]
      exact Or.inr ⟨(hquiet _).append (quiet_sent _ _), List.forall_mem_append.mpr
        ⟨signals_of_lacks _ (hprobe _), fun e hmem => mem_sentEffects hmem⟩⟩
  | thaw hst _ =>
      rw [heldBy_some, hst]
      exact Or.inr ⟨(quiet_sent _ _).append (lacks_probe rfl), List.forall_mem_append.mpr
        ⟨fun e hmem => mem_sentEffects hmem, signals_of_lacks _ (lacks_probe rfl)⟩⟩
  | terminateFrozen _ hst _ =>
      rw [heldBy_some, hst]
      exact Or.inr ⟨quiet_sent _ _, fun e hmem => mem_sentEffects hmem⟩
  | terminateRunning _ hst hgrace _ =>
      rw [heldBy_some, hst]
      refine Or.inr ⟨((hquiet _).append (quiet_sent _ _)).append (quiet_grace hgrace), ?_⟩
      refine List.forall_mem_append.mpr ⟨List.forall_mem_append.mpr
        ⟨signals_of_lacks _ (hprobe _), fun e hmem => mem_sentEffects hmem⟩, ?_⟩
      cases hgrace with
      | now _ => exact fun e hmem => mem_sentEffects hmem
      | timer _ => exact signals_of_lacks _ (.cons rfl .nil)
  | exited _ _ => exact Or.inl (.cons rfl (hprobe _))
  | stopped _ _ | stranded _ _ _ _ =>
      exact Or.inl (.cons rfl ((htimer _).append (hprobe _)))
  | pruned _ =>
      exact Or.inl (.cons rfl (((htimer _).append (hprobe _)).append (lacks_dropped (fun _ => rfl) _)))
  | restarted _ _ hstart =>
      exact Or.inl ((Lacks.cons rfl ((htimer _).append (hprobe _))).append
        (start_lacks_signal hstart))

/-- Adding the effects of a step that signals only an unreaped child. -/
theorem signalsLive_append {trace out : List Effect} (held : Option ServiceProcess)
    (h : SignalsLive trace) (hout : SignalsOnly held out)
    (hheld : ∀ process, held = some process → process ∈ unreaped trace) :
    SignalsLive (trace ++ out) := by
  intro pre e post heq process hp
  rcases List.append_eq_append_iff.mp heq with ⟨rest, rfl, hrest⟩ | ⟨rest, rfl, hrest⟩
  · -- the signal is among the new effects, after `rest`
    have hmem : e ∈ out := by rw [hrest]; simp
    rcases hout with hlacks | ⟨hquiet, honly⟩
    · have := signals_of_lacks none hlacks e hmem process hp
      exact nomatch this
    · have hrest' : Lacks touchesChildren rest := fun x hx =>
        hquiet x (by rw [hrest]; exact List.mem_append_left _ hx)
      rw [unreaped_append, foldl_quiet hrest']
      exact hheld process (honly e hmem process hp)
  · -- the signal is in the old trace, or is the first new effect
    cases rest with
    | nil =>
        have hmem : e ∈ out := by rw [← List.nil_append out, ← hrest]; exact List.mem_cons_self
        rcases hout with hlacks | ⟨-, honly⟩
        · have := signals_of_lacks none hlacks e hmem process hp
          exact nomatch this
        · rw [← List.append_nil pre]
          exact hheld process (honly e hmem process hp)
    | cons first rest =>
        obtain ⟨rfl, rfl⟩ := List.cons.inj hrest
        exact h pre e rest rfl process hp

/-- **Every step** signals only a child that has not been reaped. -/
theorem signalsLive_step {m m' : Machine} {label : Label} (hfresh : SpawnsFresh m'.trace)
    (hm : Consistent m ∧ SignalsLive m.trace) (h : Lifecycle m label m') :
    Consistent m' ∧ SignalsLive m'.trace := by
  refine ⟨consistent_step hfresh hm.1 h, ?_⟩
  cases h with
  | @act name action out entry ht =>
      rw [write_trace]
      refine signalsLive_append _ hm.2 (transition_signals ht) fun process hheld => ?_
      exact (hm.1.accounts.held process).mpr ⟨name, hheld⟩
  | foreign _ =>
      exact signalsLive_append none hm.2 (Or.inl (.cons rfl .nil)) nofun
  | shutdown _ _ => exact hm.2

/-- **No signal goes to a child that has been reaped**, in no reachable state. -/
theorem reachable_signalsLive {m : Machine} (h : Reachable m) : SignalsLive m.trace :=
  (reachable_invariant (I := fun m => Consistent m ∧ SignalsLive m.trace)
    (fun files lines => ⟨consistent_new files lines, fun pre e post heq =>
      absurd heq.symm (by simp [newMachine])⟩) signalsLive_step h).2.2

end BeamSignals
