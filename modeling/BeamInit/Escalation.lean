import BeamInit.ForceKill

/-! # Escalation — a termination in progress ends with a SIGKILL

    A service that is Stopping has been killed already, or its grace timer still
    runs, or the request the timer has sent is still on the channel.  The status,
    the timer and the request are kept in three places; a step that rebuilds the
    status keeps the token, and only the reaping of the process aborts the timer. -/

namespace BeamEscalation

open BeamApi BeamOs BeamService BeamManager BeamCommands BeamMainLoop BeamLifecycle BeamOperations
open BeamRefinement BeamConsistency BeamChannel BeamTickets BeamNetwork BeamForceKill Runs Fence

/-! ## When a termination began -/

def StoppingOn (name : String) (process : ServiceProcess) (m : Machine) : Prop :=
  ∃ s afterStop kill, m.get? name = some s ∧ s.state.status = .stopping process afterStop kill

/-- The step terminates a service that runs as `process`, or is frozen as it. -/
def BeginsStop (name : String) (process : ServiceProcess) (m : Machine) (label : Label)
    (m' : Machine) : Prop :=
  (∃ request s pty, label = .act name (.terminate request) ∧ m.get? name = some s
    ∧ (s.state.status = .running process pty ∨ s.state.status = .frozen process pty))
  ∧ StoppingOn name process m'

/-- The service has been Stopping on `process` since it was terminated in `m₀`. -/
def StoppingSince (name : String) (process : ServiceProcess) (m₀ m : Machine) : Prop :=
  Reached m₀ ∧ Since Lifecycle (BeginsStop name process) (fun _ _ m => StoppingOn name process m) m₀ m

/-- SIGKILL was sent to `process` between the two states. -/
def KilledSince (process : ServiceProcess) (m₀ m : Machine) : Prop :=
  ∃ e ∈ newEffects m₀ m, e ∈ sentEffects process SIGKILL

/-- **The invariant**: every termination in progress has killed, or still will. -/
def Escalates (sys : System) : Prop :=
  ∀ name s process afterStop kill, sys.machine.get? name = some s →
    s.state.status = .stopping process afterStop kill →
    ∃ m₀, StoppingSince name process m₀ sys.machine
      ∧ (KilledSince process m₀ sys.machine
        ∨ ∃ pending, kill = some pending
          ∧ ⟨name, process, pending.token⟩ ∈ killsUnderway sys.tasks sys.queue)

/-! ## Effects since a state -/

theorem since_extends {name : String} {process : ServiceProcess} {m₀ m : Machine}
    (h : StoppingSince name process m₀ m) : m₀.trace <+: m.trace := by
  obtain ⟨labels, hrun⟩ := h.2.run
  exact run_trace hrun

/-- A SIGKILL already sent stays sent, and one in the new effects counts. -/
theorem killedSince_append {name : String} {process : ServiceProcess} {m₀ m m' : Machine}
    {out : List Effect} (h : StoppingSince name process m₀ m) (hout : m'.trace = m.trace ++ out)
    (hkill : KilledSince process m₀ m ∨ ∃ e ∈ out, e ∈ sentEffects process SIGKILL) :
    KilledSince process m₀ m' := by
  rw [KilledSince]
  rw [newEffects_append (since_extends h) hout]
  rcases hkill with ⟨e, hmem, he⟩ | ⟨e, hmem, he⟩
  · exact ⟨e, List.mem_append_left _ hmem, he⟩
  · exact ⟨e, List.mem_append_right _ hmem, he⟩

/-! ## Timers that are aborted -/

def abortsTimer : Effect → Bool
  | .timerAborted _ => true
  | _ => false

theorem quiet_start {name : String} {reason : StartReason} {s s' : Service}
    {probe : Option AbortHandle} {out : List Effect} (h : Start name reason s probe out s') :
    Lacks abortsTimer out := by
  have hsink : ∀ {sink : List Effect}, (∀ e ∈ sink, isSink e = true) → Lacks abortsTimer sink := by
    intro sink hs e hmem
    have := hs e hmem
    cases e <;> first | rfl | exact nomatch this
  cases h with
  | running _ _ _ hs => exact (Lacks.cons rfl (hsink hs)).append (.cons rfl (lacks_probe rfl))
  | failed _ hs => exact (Lacks.cons rfl (hsink hs)).append (.cons rfl .nil)
  | noPty _ => exact .cons rfl .nil

/-- A timer outlives effects that do not abort it. -/
theorem mem_timers_after {tasks : Tasks} {out : List Effect} {timer : GraceTimer}
    (hmem : timer ∈ tasks.timers) (hkeep : Effect.timerAborted timer.task ∉ out) :
    timer ∈ (tasks.after out).timers := by
  induction out generalizing tasks with
  | nil => exact hmem
  | cons e out ih =>
      rw [List.mem_cons, not_or] at hkeep
      have hstep : timer ∈ (tasks.step e).timers := by
        cases e with
        | timerSpawned task name token process period => exact List.mem_cons_of_mem _ hmem
        | timerAborted task =>
            refine List.mem_filter.mpr ⟨hmem, decide_eq_true fun htask => hkeep.1 ?_⟩
            rw [htask]
        | _ => exact hmem
      exact ih hstep hkeep.2

/-- The timer spawned last is there afterwards. -/
theorem mem_timers_endsWith {tasks : Tasks} {out : List Effect} {kill : ForceKill}
    (h : EndsWith kill out) : ∃ timer ∈ (tasks.after out).timers, timer.request = kill := by
  obtain ⟨before, task, period, rfl⟩ := h
  refine ⟨⟨task, kill⟩, ?_, rfl⟩
  show _ ∈ (List.foldl Tasks.step tasks _).timers
  rw [List.foldl_append]
  exact List.mem_cons_self

/-- A transition aborts no timer but the one its entry shows. -/
theorem transition_aborts {shutdown : Bool} {name : String} {action : Action}
    {entry entry' : Option Service} {out : List Effect} {task : AbortHandle}
    (h : Transition shutdown name action entry out entry') (hmem : .timerAborted task ∈ out) :
    ∃ process, timerOf entry = some (process, task) := by
  have hlacks : Lacks abortsTimer out → ∃ process, timerOf entry = some (process, task) :=
    fun hout => nomatch hout _ hmem
  have hsent : ∀ process sig, Lacks abortsTimer (sentEffects process sig) :=
    fun _ _ => lacks_sent rfl rfl
  have hprobe : ∀ task, Lacks abortsTimer (abortTask .probeAborted task) := lacks_abort fun _ => rfl
  -- the effects of a reaped Stopping service, before those of a restart
  have hreaped : ∀ {s : Service} {process : ServiceProcess} {afterStop : AfterStop}
      {kill : Option PendingKill} {status : StdExitStatus} {probe : Option AbortHandle},
      s.state.status = .stopping process afterStop kill →
      Effect.timerAborted task ∈ (.reaped process.mainPid status ::
        (abortTask .timerAborted (kill.map PendingKill.abortHandle) ++ abortTask .probeAborted probe)) →
      ∃ process, timerOf (some s) = some (process, task) := by
    intro s process afterStop kill status probe hst hmem
    rcases List.mem_append.mp ((List.mem_cons.mp hmem).resolve_left nofun) with htimer | habort
    · cases kill with
      | none => exact nomatch htimer
      | some pending =>
          cases List.mem_singleton.mp htimer
          refine ⟨process, ?_⟩
          show pendingTimer s.state.status = _
          rw [hst]
          rfl
    · exact nomatch hprobe probe _ habort
  cases h with
  | create _ _ | keep _ | stopDead _ _ | merge _ _ _ | log _ => exact nomatch hmem
  | pruneDead _ => exact hlacks (lacks_dropped (fun _ => rfl) _)
  | start _ _ hstart | restartDead _ _ hstart => exact hlacks (quiet_start hstart)
  | signal _ hout =>
      rcases hout with ⟨cmd, rfl⟩ | ⟨sig, rfl⟩
      · exact hlacks (.cons rfl .nil)
      · exact hlacks (hsent _ sig)
  | freeze _ _ => exact hlacks ((hprobe _).append (hsent _ _))
  | thaw _ _ => exact hlacks ((hsent _ _).append (lacks_probe rfl))
  | terminateFrozen _ _ _ => exact hlacks (hsent _ _)
  | terminateRunning _ _ hgrace _ =>
      refine hlacks (((hprobe _).append (hsent _ _)).append ?_)
      cases hgrace with
      | now _ => exact hsent _ _
      | timer _ => exact .cons rfl .nil
  | exited _ _ => exact hlacks (.cons rfl (hprobe _))
  | stopped hst _ | stranded _ hst _ _ => exact hreaped hst hmem
  | @pruned s _ _ _ hst =>
      rw [← List.cons_append] at hmem
      rcases List.mem_append.mp hmem with hfirst | hdropped
      · exact hreaped hst hfirst
      · exact nomatch lacks_dropped (p := abortsTimer) (fun _ => rfl) s _ hdropped
  | restarted _ hst hstart =>
      rcases List.mem_append.mp hmem with hfirst | hsecond
      · exact hreaped hst hfirst
      · exact nomatch quiet_start hstart _ hsecond

/-! ## Transitions into Stopping -/

/-- **A service that is Stopping after a transition** was so before, with the same
    grace timer, or has just been terminated: killed at once, or with a timer. -/
theorem transition_stopping {shutdown : Bool} {name : String} {action : Action}
    {entry : Option Service} {s' : Service} {out : List Effect} {process : ServiceProcess}
    {afterStop : AfterStop} {kill : Option PendingKill}
    (h : Transition shutdown name action entry out (some s'))
    (hsettled : shutdown = true → ∀ s, entry = some s → isSettled s.state.status = true)
    (hst' : s'.state.status = .stopping process afterStop kill) :
    (∃ s afterStop₀, entry = some s ∧ s.state.status = .stopping process afterStop₀ kill
        ∧ Lacks abortsTimer out)
      ∨ ∃ request s pty, action = .terminate request ∧ entry = some s
        ∧ (s.state.status = .running process pty ∨ s.state.status = .frozen process pty)
        ∧ ((∃ e ∈ out, e ∈ sentEffects process SIGKILL)
          ∨ ∃ pending, kill = some pending ∧ EndsWith ⟨name, process, pending.token⟩ out) := by
  -- one of the effects of sending a signal
  have hsends : ∀ sig, ∃ e, e ∈ sentEffects process sig := by
    intro sig
    unfold sentEffects
    cases process.monitorTx <;> exact ⟨_, List.mem_cons_self⟩
  have hother : ∀ {status : ServiceStatus}, s'.state.status = status →
      (∀ process afterStop kill, status ≠ .stopping process afterStop kill) → False :=
    fun hstatus hne => hne _ _ _ (hstatus.symm.trans hst')
  cases h with
  | create _ hs => exact (hother hs.status nofun).elim
  | start _ _ hstart | restartDead _ _ hstart | restarted _ _ hstart =>
      cases hstart with
      | running hu _ _ _ => exact (hother hu.status_eq nofun).elim
      | failed hu _ => exact (hother hu.status_eq nofun).elim
      | noPty hu => exact (hother hu.status_eq nofun).elim
  | freeze _ hu => exact (hother hu.status_eq nofun).elim
  | thaw _ hu => exact (hother hu.status_eq nofun).elim
  | exited _ hu => exact (hother hu.status_eq nofun).elim
  | stopped _ hu => exact (hother hu.status_eq nofun).elim
  | @keep s _ hu | @stopDead s _ _ hu =>
      exact Or.inl ⟨s, afterStop, rfl, hu.status_eq.symm.trans hst', .nil⟩
  | signal _ hout =>
      refine Or.inl ⟨s', afterStop, rfl, hst', ?_⟩
      rcases hout with ⟨cmd, rfl⟩ | ⟨sig, rfl⟩
      · exact .cons rfl .nil
      · exact lacks_sent rfl rfl
  | @merge s _ process₀ afterStop₀ request kill₀ _ hst hu =>
      have heq := hu.status_eq.symm.trans hst'
      cases heq
      exact Or.inl ⟨s, afterStop₀, rfl, hst, .nil⟩
  | @terminateFrozen s _ process₀ pty request _ hst hu =>
      have heq := hu.status_eq.symm.trans hst'
      cases heq
      obtain ⟨e, he⟩ := hsends SIGKILL
      exact Or.inr ⟨afterStop, s, pty, rfl, rfl, Or.inr hst, Or.inl ⟨e, he, he⟩⟩
  | @terminateRunning s _ process₀ pty request kill₀ _ _ hst hgrace hu =>
      have heq := hu.status_eq.symm.trans hst'
      cases heq
      refine Or.inr ⟨afterStop, s, pty, rfl, rfl, Or.inl hst, ?_⟩
      cases hgrace with
      | now _ =>
          obtain ⟨e, he⟩ := hsends SIGKILL
          exact Or.inl ⟨e, List.mem_append_right _ he, he⟩
      | @timer token task _ => exact Or.inr ⟨_, rfl, _, task, _, rfl⟩
  | stranded hshut hst _ _ =>
      -- a settled service has no restart pending
      have := hsettled hshut _ rfl
      rw [hst] at this
      exact nomatch this
  | @log s _ line hs =>
      subst hs
      exact Or.inl ⟨s, afterStop, rfl, hst', .nil⟩

/-! ## The steps of the system -/

/-- The step lemma, for the lifecycle steps of an event. -/
theorem escalates_beat {sys sys' : System} {label : Label} (hf : Fenced sys)
    (hI : Reached sys.machine ∧ Escalates sys) (h : Net sys (some label) sys') :
    Reached sys'.machine ∧ Escalates sys' := by
  cases h with
  | @beat _ m' out hstep hout _ _ =>
      refine ⟨reached_snoc hI.1 hstep, fun name s process afterStop kill hget hst => ?_⟩
      have hstopping : StoppingOn name process m' := ⟨s, afterStop, kill, hget, hst⟩
      -- the service was Stopping already: the timer it had is still there
      have hbefore : ∀ s₀ afterStop₀, sys.machine.get? name = some s₀ →
          s₀.state.status = .stopping process afterStop₀ kill →
          (∀ timer ∈ sys.tasks.timers, timer.request.name = name →
            Effect.timerAborted timer.task ∉ out) →
          ∃ m₀, StoppingSince name process m₀ m' ∧ (KilledSince process m₀ m'
            ∨ ∃ pending, kill = some pending ∧ ⟨name, process, pending.token⟩
              ∈ killsUnderway (sys.tasks.after out) sys.queue) := by
        intro s₀ afterStop₀ hget₀ hst₀ hkeep
        obtain ⟨m₀, hsince, hkilled⟩ := hI.2 name s₀ process afterStop₀ kill hget₀ hst₀
        refine ⟨m₀, ⟨hsince.1, hsince.2.went hstep hstopping⟩, ?_⟩
        rcases hkilled with hkilled | ⟨pending, hpending, ⟨timer, hmem, hrequest⟩ | hqueued⟩
        · exact Or.inl (killedSince_append hsince hout (Or.inl hkilled))
        · have hname : timer.request.name = name := by rw [hrequest]
          exact Or.inr ⟨pending, hpending,
            Or.inl ⟨timer, mem_timers_after hmem (hkeep timer hmem hname), hrequest⟩⟩
        · exact Or.inr ⟨pending, hpending, Or.inr hqueued⟩
      have hsame := hstep
      cases hstep with
      | @act acted action out' entry ht =>
          rw [write_trace] at hout
          obtain rfl := List.append_cancel_left hout
          by_cases hname : acted = name
          · subst hname
            rw [get?_write, if_pos rfl] at hget
            subst hget
            rcases transition_stopping ht (fun hshut => hf.consistent.settled hshut acted) hst with
              ⟨s₀, afterStop₀, hget₀, hst₀, hlacks⟩
                | ⟨request, s₀, pty, rfl, hget₀, hlive, hkill⟩
            · exact hbefore s₀ afterStop₀ hget₀ hst₀ fun timer _ _ habort => nomatch hlacks _ habort
            · refine ⟨sys.machine,
                ⟨hI.1, .began hsame ⟨⟨request, s₀, pty, rfl, hget₀, hlive⟩, hstopping⟩⟩, ?_⟩
              rw [KilledSince]
              rw [newEffects_of_append (write_trace _)]
              rcases hkill with hkill | ⟨pending, hpending, hends⟩
              · exact Or.inl hkill
              · exact Or.inr ⟨pending, hpending, Or.inl (mem_timers_endsWith hends)⟩
          · rw [get?_write, if_neg hname] at hget
            refine hbefore s afterStop hget hst fun timer hmem hrequest habort => hname ?_
            -- the fence: the handle the acted entry shows is that of its own timer
            obtain ⟨process', hshow⟩ := transition_aborts ht habort
            exact ((hf.timers acted process' timer.ticket hshow ⟨timer, hmem, rfl⟩).1).symm.trans
              hrequest
      | foreign _ =>
          obtain rfl := List.append_cancel_left hout
          exact hbefore s afterStop hget hst fun _ _ _ habort =>
            nomatch List.mem_singleton.mp habort
      | shutdown _ _ =>
          obtain rfl := List.self_eq_append_right.mp hout
          exact hbefore s afterStop hget hst fun _ _ _ habort => nomatch habort

/-- The tasks and the channel may change as long as no force-kill gets lost. -/
theorem escalates_mono {sys : System} {tasks : Tasks} {queue : List Message} (hI : Escalates sys)
    (hsub : killsUnderway sys.tasks sys.queue ⊆ killsUnderway tasks queue) :
    Escalates ⟨sys.machine, tasks, queue⟩ := by
  intro name s process afterStop kill hget hst
  obtain ⟨m₀, hsince, hkilled⟩ := hI name s process afterStop kill hget hst
  refine ⟨m₀, hsince, hkilled.imp_right ?_⟩
  rintro ⟨pending, hpending, hmem⟩
  exact ⟨pending, hpending, hsub hmem⟩

/-- A force-kill whose token the service shows sends SIGKILL to its process. -/
theorem forceKillService_hits {os : Os} {m m' : Machine} {name : String} {s : Service}
    {process : ServiceProcess} {afterStop : AfterStop} {pending : PendingKill}
    (h : forceKillService os m name pending.token = .ok ((), m')) (hget : m.get? name = some s)
    (hst : s.state.status = .stopping process afterStop (some pending)) :
    m' = m.emit (sentEffects process SIGKILL) := by
  rw [forceKillService] at h
  rw [hget] at h
  dsimp only at h
  rw [hst] at h
  dsimp only at h
  rw [if_pos rfl] at h
  obtain ⟨sent, hsent, h⟩ := bind_eq_ok.mp h
  cases h
  rw [sendSignal_ok hsent]

theorem escalates_step {sys sys' : System} {move : SysMove} (hf : Fenced sys)
    (hI : Reached sys.machine ∧ Escalates sys) (h : SysStep sys move sys') :
    Reached sys'.machine ∧ Escalates sys' := by
  have happend : ∀ message, killsUnderway sys.tasks sys.queue
      ⊆ killsUnderway sys.tasks (sys.queue ++ [message]) :=
    fun message kill hmem => hmem.imp_right fun ⟨c, hq⟩ => ⟨c, List.mem_append_left _ hq⟩
  cases h with
  | @received message rest os reply m' hqueue _ hevent hspawns hfresh =>
      obtain ⟨hreached, hmid⟩ := beats_invariant
        (I := fun sys => Reached sys.machine ∧ Escalates sys) escalates_beat hf hI hevent hspawns hfresh
      refine ⟨hreached, fun name s process afterStop kill hget hst => ?_⟩
      obtain ⟨m₀, hsince, hkilled⟩ := hmid name s process afterStop kill hget hst
      rcases hkilled with hkilled | ⟨pending, hpending, htimer | ⟨credentials, hqueued⟩⟩
      · exact ⟨m₀, hsince, Or.inl hkilled⟩
      · exact ⟨m₀, hsince, Or.inr ⟨pending, hpending, Or.inl htimer⟩⟩
      · rcases List.mem_cons.mp (hqueue ▸ hqueued) with rfl | hrest
        · -- the request is being handled: it finds its token and kills
          obtain ⟨⟨result, m₁⟩, hcmd, hreply⟩ := bind_eq_ok.mp hevent
          cases hreply
          obtain ⟨⟨_, m₂⟩, hforce, hdone⟩ := bind_eq_ok.mp hcmd
          cases hdone
          have hget₀ : sys.machine.get? name = some s := by
            rcases forceKillService_ok hforce with rfl | ⟨_, _, _, _, -, -, -, rfl⟩
            · exact hget
            · exact hget
          subst hpending
          obtain rfl := forceKillService_hits hforce hget₀ hst
          obtain ⟨m₀, hsince, -⟩ := hI.2 name s process afterStop _ hget₀ hst
          have hsignal := act_signal hget₀ (by rw [hst]; rfl) (Or.inr ⟨SIGKILL, rfl⟩)
          refine ⟨m₀, ⟨hsince.1, hsince.2.went hsignal ⟨s, afterStop, _, hget, hst⟩⟩,
            Or.inl (killedSince_append hsince rfl (Or.inr ?_))⟩
          rw [sentEffects]
          cases process.monitorTx <;> exact ⟨_, List.mem_cons_self, List.mem_cons_self⟩
        · exact ⟨m₀, hsince, Or.inr ⟨pending, hpending, Or.inr ⟨credentials, hrest⟩⟩⟩
  | posted _ _ => exact ⟨hI.1, escalates_mono hI.2 (happend _)⟩
  | probeSent _ _ => exact ⟨hI.1, escalates_mono hI.2 (happend _)⟩
  | probeEnded _ => exact ⟨hI.1, escalates_mono hI.2 fun _ hmem => hmem⟩
  | @timerSent timer credentials htimer _ =>
      refine ⟨hI.1, escalates_mono hI.2 ?_⟩
      rintro kill (⟨other, hmem, rfl⟩ | ⟨c, hqueued⟩)
      · by_cases hother : other = timer
        · subst hother
          exact Or.inr ⟨credentials, List.mem_append_right _ List.mem_cons_self⟩
        · exact Or.inl ⟨other, (List.mem_erase_of_ne hother).mpr hmem, rfl⟩
      · exact Or.inr ⟨c, List.mem_append_left _ hqueued⟩
  | logged hstep => exact escalates_beat hf hI (beat_of_logged hf hstep)

theorem sysReachable_escalates {sys : System} (h : SysReachable sys) :
    Reached sys.machine ∧ Escalates sys := by
  refine sysReachable_invariant (I := fun sys => Reached sys.machine ∧ Escalates sys) ?_
    escalates_step h
  exact fun files lines init =>
    ⟨⟨files, lines, [], .nil _⟩, fun name s process afterStop kill hget => nomatch hget⟩

/-- **HEADLINE.** While a service is Stopping, the process has been sent SIGKILL
    since its termination began, or `pending_kill` holds a token with which a
    grace timer still runs or a force-kill is on the channel. -/
theorem termination_escalates {sys : System} {name : String} {s : Service}
    {process : ServiceProcess} {afterStop : AfterStop} {kill : Option PendingKill}
    (h : SysReachable sys) (hget : sys.machine.get? name = some s)
    (hst : s.state.status = .stopping process afterStop kill) :
    ∃ m₀, StoppingSince name process m₀ sys.machine
      ∧ (KilledSince process m₀ sys.machine
        ∨ ∃ pending, kill = some pending
          ∧ ((∃ timer ∈ sys.tasks.timers, timer.request = ⟨name, process, pending.token⟩)
            ∨ ∃ credentials, .forceKill ⟨name, process, pending.token⟩ credentials ∈ sys.queue)) :=
  (sysReachable_escalates h).2 name s process afterStop kill hget hst

/-- Here `web`, whose timer has expired: its force-kill is still on the channel. -/
theorem termination_escalates_web :
    ∃ m₀, StoppingSince "web" ⟨100, none, 0⟩ m₀ (systemAfter stopExpired).machine
      ∧ (KilledSince ⟨100, none, 0⟩ m₀ (systemAfter stopExpired).machine
        ∨ ∃ pending, some (PendingKill.mk ⟨1⟩ 1) = some pending
          ∧ ((∃ timer ∈ (systemAfter stopExpired).tasks.timers,
              timer.request = ⟨"web", ⟨100, none, 0⟩, pending.token⟩)
            ∨ ∃ credentials, .forceKill ⟨"web", ⟨100, none, 0⟩, pending.token⟩ credentials
              ∈ (systemAfter stopExpired).queue)) := by
  have hstatus : ((systemAfter stopExpired).machine.get? "web").map (·.state.status)
      = some (.stopping ⟨100, none, 0⟩ .stop (some ⟨⟨1⟩, 1⟩)) := by decide +kernel
  obtain ⟨s, hget, hst⟩ := Option.map_eq_some_iff.mp hstatus
  exact termination_escalates (systemAfter_reachable (by decide +kernel)) hget hst

end BeamEscalation
