import BeamInit.Consistency

/-! # Shutdown — after the first SIGTERM or SIGINT

    Once the flag is up no step starts or adds anything, and the loop leaves
    exactly when the last main process has been reaped.  The relation between
    the states before and after is carried over single steps first and over
    runs by transitivity. -/

namespace BeamShutdown

open BeamApi BeamOs BeamLogs BeamService BeamManager BeamMainLoop BeamLifecycle BeamOperations
open BeamRefinement BeamConsistency Runs

/-- The effects of `start_service` that go with a call of `spawn_service`. -/
def startsSomething : Effect → Bool
  | .starting .. | .spawned .. | .spawnFailed .. => true
  | _ => false

/-- Nothing was started and no entry was added. -/
structure NoNewService (m m' : Machine) : Prop where
  trace : ∃ out, m'.trace = m.trace ++ out ∧ Lacks startsSomething out
  entries : ∀ name, (m'.get? name).isSome → (m.get? name).isSome

theorem NoNewService.refl (m : Machine) : NoNewService m m :=
  ⟨⟨[], (List.append_nil _).symm, .nil⟩, fun _ h => h⟩

theorem NoNewService.trans {m m' m'' : Machine} (h : NoNewService m m') (h' : NoNewService m' m'') :
    NoNewService m m'' := by
  obtain ⟨out, htrace, hout⟩ := h.trace
  obtain ⟨out', htrace', hout'⟩ := h'.trace
  refine ⟨⟨out ++ out', ?_, hout.append hout'⟩, fun name => h.entries name ∘ h'.entries name⟩
  rw [htrace', htrace, List.append_assoc]

/-- The service an attempted start is about. -/
def startedName : Effect → Option String
  | .starting name _ | .spawned name _ | .spawnFailed name _ => some name
  | _ => none

/-- The actions that start a service, or have it started once its process is reaped. -/
def revives : Action → Bool
  | .create | .start _ | .terminate (.restart _) => true
  | _ => false

theorem startedName_of_lacks {out : List Effect} (h : Lacks startsSomething out) :
    ∀ e ∈ out, startedName e = none := by
  intro e hmem
  have := h e hmem
  cases e <;> first | rfl | exact nomatch this

theorem started_of_lacks {out : List Effect} {name : String} (h : Lacks startsSomething out) :
    ∀ e ∈ out, ∀ started ∈ startedName e, started = name := by
  intro e hmem started hstarted
  rw [startedName_of_lacks h e hmem] at hstarted
  exact nomatch hstarted

/-- `start_service` starts the service it was called for. -/
theorem start_startedName {name : String} {reason : StartReason} {s s' : Service}
    {probe : Option AbortHandle} {out : List Effect} (h : Start name reason s probe out s') :
    ∀ e ∈ out, ∀ started ∈ startedName e, started = name := by
  have hsink : ∀ {sink : List Effect}, (∀ e ∈ sink, isSink e = true) →
      Lacks startsSomething sink := by
    intro sink hs e hmem
    have := hs e hmem
    cases e <;> first | rfl | exact nomatch this
  have hown : ∀ {e : Effect}, startedName e = some name →
      ∀ started ∈ startedName e, started = name := by
    intro e he started hstarted
    rw [he] at hstarted
    exact (Option.some.inj hstarted).symm
  cases h with
  | running _ _ _ hs =>
      refine List.forall_mem_append.mpr
        ⟨List.forall_mem_cons.mpr ⟨hown rfl, started_of_lacks (hsink hs)⟩, ?_⟩
      exact List.forall_mem_cons.mpr ⟨hown rfl, started_of_lacks (lacks_probe rfl)⟩
  | failed _ hs =>
      refine List.forall_mem_append.mpr
        ⟨List.forall_mem_cons.mpr ⟨hown rfl, started_of_lacks (hsink hs)⟩, ?_⟩
      exact List.forall_mem_singleton.mpr (hown rfl)
  | noPty _ => exact List.forall_mem_singleton.mpr (hown rfl)

/-- **A transition starts nothing, or it starts its own service**: no shutdown has
    begun, and the action asks for it or a restart was pending. -/
theorem transition_starts {shutdown : Bool} {name : String} {action : Action}
    {entry entry' : Option Service} {out : List Effect}
    (h : Transition shutdown name action entry out entry') :
    Lacks startsSomething out
      ∨ shutdown = false ∧ (∀ e ∈ out, ∀ started ∈ startedName e, started = name)
        ∧ (revives action = true ∨ ∃ s, entry = some s ∧ isSettled s.state.status = false) := by
  have hprobe : ∀ task, Lacks startsSomething (abortTask .probeAborted task) :=
    lacks_abort fun _ => rfl
  have htimer : ∀ task, Lacks startsSomething (abortTask .timerAborted task) :=
    lacks_abort fun _ => rfl
  have hsent : ∀ process sig, Lacks startsSomething (sentEffects process sig) :=
    fun _ _ => lacks_sent rfl rfl
  cases h with
  | start hshut _ hstart | restartDead hshut _ hstart =>
      exact Or.inr ⟨hshut, start_startedName hstart, Or.inl rfl⟩
  | @restarted s s' process reason _ _ _ hshut hst hstart =>
      refine Or.inr ⟨hshut, List.forall_mem_append.mpr ⟨?_, start_startedName hstart⟩,
        Or.inr ⟨s, rfl, by rw [hst]; rfl⟩⟩
      exact started_of_lacks (.cons rfl ((htimer _).append (hprobe _)))
  | create _ _ | keep _ | stopDead _ _ | merge _ _ _ | log _ => exact Or.inl .nil
  | pruneDead _ => exact Or.inl (lacks_dropped (fun _ => rfl) _)
  | signal _ hout =>
      rcases hout with ⟨cmd, rfl⟩ | ⟨sig, rfl⟩
      · exact Or.inl (.cons rfl .nil)
      · exact Or.inl (hsent _ sig)
  | freeze _ _ => exact Or.inl ((hprobe _).append (hsent _ _))
  | thaw _ _ => exact Or.inl ((hsent _ _).append (lacks_probe rfl))
  | terminateFrozen _ _ _ => exact Or.inl (hsent _ _)
  | terminateRunning _ _ hgrace _ =>
      refine Or.inl (((hprobe _).append (hsent _ _)).append ?_)
      cases hgrace with
      | now _ => exact hsent _ _
      | timer _ => exact .cons rfl .nil
  | exited _ _ => exact Or.inl (.cons rfl (hprobe _))
  | stopped _ _ | stranded _ _ _ _ =>
      exact Or.inl (.cons rfl ((htimer _).append (hprobe _)))
  | pruned _ =>
      exact Or.inl (.cons rfl (((htimer _).append (hprobe _)).append (lacks_dropped (fun _ => rfl) _)))

/-- With the flag up, a transition starts nothing and fills no free entry. -/
theorem transition_noStart {name : String} {action : Action} {entry entry' : Option Service}
    {out : List Effect} (h : Transition true name action entry out entry') :
    Lacks startsSomething out ∧ (entry'.isSome → entry.isSome) := by
  refine ⟨?_, fun hsome => ?_⟩
  · rcases transition_starts h with hlacks | ⟨hshut, -⟩
    · exact hlacks
    · exact nomatch hshut
  · cases h with
    | create hshut _ => exact nomatch hshut
    | pruneDead _ | pruned _ => exact nomatch hsome
    | _ => rfl

/-- Stopping one service, with the flag up or down. -/
theorem noNewService_act {m : Machine} {name : String} {action : Action} {out : List Effect}
    {entry : Option Service} (h : Transition true name action (m.get? name) out entry) :
    NoNewService m (write m name entry out) := by
  obtain ⟨hout, hentry⟩ := transition_noStart h
  refine ⟨⟨out, write_trace entry, hout⟩, fun other hsome => ?_⟩
  rw [get?_write] at hsome
  by_cases hname : name = other
  · rw [if_pos hname] at hsome
    exact hname ▸ hentry hsome
  · rw [if_neg hname] at hsome
    exact hsome

/-- What every step keeps once the flag is up. -/
def FlagKept (m m' : Machine) : Prop :=
  m.mgr.shutdown = true → m'.mgr.shutdown = true ∧ NoNewService m m'

theorem FlagKept.trans {m m' m'' : Machine} (h : FlagKept m m') (h' : FlagKept m' m'') :
    FlagKept m m'' := by
  intro hshut
  obtain ⟨hshut', hnew⟩ := h hshut
  obtain ⟨hshut'', hnew'⟩ := h' hshut'
  exact ⟨hshut'', hnew.trans hnew'⟩

theorem flagKept_step {m m' : Machine} {label : Label} (h : Lifecycle m label m') :
    FlagKept m m' := by
  intro hshut
  cases h with
  | act ht =>
      rw [write_shutdown]
      rw [hshut] at ht
      exact ⟨hshut, noNewService_act ht⟩
  | foreign _ => exact ⟨hshut, ⟨_, rfl, .cons rfl .nil⟩, fun _ h => h⟩
  | shutdown hdown _ => exact absurd hshut (by rw [hdown]; exact Bool.noConfusion)

theorem flagKept_run {m m' : Machine} {moves : List Move} (h : Run Step m moves m') :
    FlagKept m m' :=
  h.relates (fun m hshut => ⟨hshut, .refl m⟩) FlagKept.trans fun hstep => by
    obtain ⟨labels, hlabels⟩ := step_ok hstep
    exact hlabels.relates (fun m hshut => ⟨hshut, .refl m⟩) FlagKept.trans flagKept_step

/-- Handling SIGTERM or SIGINT raises the flag, and starts nothing. -/
theorem handleSignal_terminate {os : Os} {m m' : Machine} {signo : Int}
    (hsig : signo = SIGTERM ∨ signo = SIGINT) (h : handleSignal os m signo = .ok m') :
    m'.mgr.shutdown = true ∧ NoNewService m m' := by
  have hbegin : beginShutdown os m = .ok m' := by
    rcases handleSignal_ok h with ⟨rfl, -⟩ | ⟨-, hbegin⟩ | ⟨-, hnot, -⟩
    · exact absurd hsig (by decide)
    · exact hbegin
    · exact absurd hsig hnot
  rcases beginShutdown_ok hbegin with ⟨hshut, rfl⟩ | ⟨-, hrun⟩
  · exact ⟨hshut, .refl m'⟩
  · obtain ⟨m₁, hstops, hlast⟩ := hrun.split
    have hnew : NoNewService m m₁ := by
      refine hstops.relates_of (Q := fun label => ∃ name, label = .act name (.terminate .stop))
        NoNewService.refl NoNewService.trans ?_ ?_
      · rintro m label m' ⟨name, rfl⟩ hstep
        obtain ⟨out, entry, ht, rfl⟩ := hstep.act_inv
        exact noNewService_act (transition_stop_any ht true)
      · intro label hmem
        obtain ⟨name, -, rfl⟩ := List.mem_map.mp hmem
        exact ⟨name, rfl⟩
    cases hlast with
    | cons hflag hnil =>
        cases hnil.eq_of_nil
        cases hflag with
        | shutdown _ _ => exact ⟨rfl, hnew.trans ⟨⟨[], (List.append_nil _).symm, .nil⟩, fun _ h => h⟩⟩

/-- A second SIGTERM or SIGINT changes nothing. -/
theorem handleSignal_again {m : Machine} {signo : Int} (os : Os)
    (hsig : signo = SIGTERM ∨ signo = SIGINT) (hshut : m.mgr.shutdown = true) :
    handleSignal os m signo = .ok m := by
  have hchld : signo ≠ SIGCHLD := by rcases hsig with rfl | rfl <;> decide
  rw [handleSignal]
  rw [if_neg hchld]
  show (if signo = SIGTERM ∨ signo = SIGINT then beginShutdown os m else Except.ok m) = .ok m
  rw [if_pos hsig]
  exact if_pos hshut

/-- With the flag up, the loop is done exactly when no main process is unreaped. -/
theorem shutdownComplete_iff {m : Machine} (hm : Consistent m) (hshut : m.mgr.shutdown = true) :
    shutdownComplete m = true ↔ unreaped m.trace = [] := by
  rw [shutdownComplete, shutdownInitiated]
  rw [hshut, Bool.true_and, List.all_eq_true]
  constructor
  · intro hall
    refine List.eq_nil_iff_forall_not_mem.mpr fun child hmem => ?_
    obtain ⟨name, hheld⟩ := (hm.accounts.held child).mp hmem
    obtain ⟨s, hget, hp⟩ := Option.bind_eq_some_iff.mp hheld
    have := hall (name, s) (Std.ExtTreeMap.mem_toList_iff_getElem?_eq_some.mpr hget)
    revert this hp
    cases s.state.status <;> simp [ServiceStatus.process?]
  · rintro hnil ⟨name, s⟩ hentry
    have hget := Std.ExtTreeMap.mem_toList_iff_getElem?_eq_some.mp hentry
    have hfree : s.state.status.process? = none := by
      by_contra hlive
      obtain ⟨process, hp⟩ := Option.ne_none_iff_exists'.mp hlive
      have : process ∈ unreaped m.trace :=
        (hm.accounts.held process).mpr ⟨name, Option.bind_eq_some_iff.mpr ⟨s, hget, hp⟩⟩
      rw [hnil] at this
      exact absurd this List.not_mem_nil
    have hset := hm.settled hshut name s hget
    revert hfree hset
    cases s.state.status <;> simp [ServiceStatus.process?, isSettled]

/-- A settled status, spelled out. -/
theorem isSettled_iff {status : ServiceStatus} :
    isSettled status = true ↔ isDead status = true
      ∨ ∃ process kill,
          status = .stopping process .stop kill ∨ status = .stopping process .prune kill := by
  cases status with
  | stopped | exited _ | error _ => exact ⟨fun _ => Or.inl rfl, fun _ => rfl⟩
  | running _ _ | frozen _ _ | dummy => simp [isSettled, isDead]
  | stopping process afterStop kill => cases afterStop <;> simp [isSettled, isDead, AfterStop.isRestart]

/-- **HEADLINE.** In every state after the first SIGTERM or SIGINT: no spawn was
    attempted and no service added since, every service is stopped, exited, in
    error or stopping for good, a further signal changes nothing, and the loop
    leaves exactly when no main process is left unreaped. -/
theorem shutdown_is_final {m m₁ m₂ : Machine} {os : Os} {signo : Int} {reply : Reply}
    {moves : List Move} (hm : Reachable m) (hsig : signo = SIGTERM ∨ signo = SIGINT)
    (hfirst : Step m (.handled os (.signal signo) reply) m₁) (hrun : Run Step m₁ moves m₂) :
    NoNewService m m₂
      ∧ (∀ move m₃, Step m₂ move m₃ → NoNewService m₂ m₃)
      ∧ (∀ name s, m₂.get? name = some s → isDead s.state.status = true
          ∨ ∃ process kill, s.state.status = .stopping process .stop kill
            ∨ s.state.status = .stopping process .prune kill)
      ∧ (∀ os' signo', signo' = SIGTERM ∨ signo' = SIGINT → handleSignal os' m₂ signo' = .ok m₂)
      ∧ (shutdownComplete m₂ = true ↔ unreaped m₂.trace = [])
      ∧ afterEvent m₂ = (if unreaped m₂.trace = [] then .leave else .next) := by
  have hm₂ : Consistent m₂ :=
    reachable_consistent (reachable_run (reachable_snoc hm hfirst) hrun)
  have hsignal : handleSignal os m signo = .ok m₁ := by
    cases hfirst with
    | handled hevent _ =>
        obtain ⟨m₁', hsignal, heq⟩ := bind_eq_ok.mp hevent
        cases heq
        exact hsignal
  obtain ⟨hshut₁, hnew₁⟩ := handleSignal_terminate hsig hsignal
  obtain ⟨hshut, hnew⟩ := flagKept_run hrun hshut₁
  have hcomplete := shutdownComplete_iff hm₂ hshut
  refine ⟨hnew₁.trans hnew, fun move m₃ hmove => (flagKept_run (.single hmove) hshut).2,
    fun name s hget => isSettled_iff.mp (hm₂.settled hshut name s hget),
    fun os' signo' hsig' => handleSignal_again os' hsig' hshut, hcomplete, ?_⟩
  rw [afterEvent]
  by_cases hnil : unreaped m₂.trace = []
  · rw [if_pos (hcomplete.mpr hnil), if_pos hnil]
  · rw [if_neg (fun hc => hnil (hcomplete.mp hc)), if_neg hnil]
    exact if_pos hshut

/-- Here SIGTERM while `web` runs, and then its exit. -/
theorem shutdown_is_final_web :
    shutdownComplete (machineAfter [createWeb, terminateAll, exitOf 100]) = true
      ↔ unreaped (machineAfter [createWeb, terminateAll, exitOf 100]).trace = [] :=
  have hterm : Step (machineAfter [createWeb])
      (.handled terminateAll.1 (.signal SIGTERM) .silent)
      (machineAfter [createWeb, terminateAll]) :=
    .handled (by decide +kernel) (by decide +kernel)
  have hexit : Step (machineAfter [createWeb, terminateAll])
      (.handled (exitOf 100).1 (exitOf 100).2 .silent)
      (machineAfter [createWeb, terminateAll, exitOf 100]) :=
    .handled (by decide +kernel) (by decide +kernel)
  (shutdown_is_final createWeb_reachable (Or.inl rfl) hterm (.single hexit)).2.2.2.2.1

end BeamShutdown
