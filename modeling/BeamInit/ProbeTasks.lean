import BeamInit.StaleProbes
import BeamInit.Shutdown

/-! # Probe tasks — one for each running service that has a probe

    `spawn_liveness_probe` overwrites the handle of the service without aborting
    the task it names.  It is only reached with no handle left: whatever takes a
    service out of Running aborts its probe first, and a start or a thaw spawns
    the next one. -/

namespace BeamProbeTasks

open BeamApi BeamOs BeamService BeamManager BeamMainLoop BeamLifecycle BeamOperations BeamRefinement
open BeamConsistency BeamChannel BeamTickets BeamNetwork BeamStaleProbes BeamShutdown Runs Fence

/-! ## When a run began -/

def RunningOn (name : String) (process : ServiceProcess) (m : Machine) : Prop :=
  ∃ s pty, m.get? name = some s ∧ s.state.status = .running process pty

/-- The step starts the service as `process`, or thaws it. -/
def StartsOrThaws (name : String) (process : ServiceProcess) (m : Machine) (label : Label)
    (m' : Machine) : Prop :=
  label = .act name .thaw ∨ .spawned name process ∈ newEffects m m'

/-- Started or thawed in `m₀` with the probe `task`, the service has been Running
    as `process` ever since, and that was its latest start or thaw. -/
def ProbedSince (name : String) (process : ServiceProcess) (task : AbortHandle)
    (m₀ m : Machine) : Prop :=
  Reached m₀ ∧ Since Lifecycle
    (fun m label m' => StartsOrThaws name process m label m' ∧ RunningOn name process m'
      ∧ .probeSpawned task name (some process) ∈ newEffects m m')
    (fun m label m' => RunningOn name process m' ∧ ¬ StartsOrThaws name process m label m') m₀ m

/-! ## The tasks that run -/

/-- A probe that runs after some effects ran before and was not aborted by them,
    or they spawned it. -/
theorem mem_probes_after {tasks : Tasks} {out : List Effect} {probe : ProbeTask}
    (h : probe ∈ (tasks.after out).probes) :
    (probe ∈ tasks.probes ∧ .probeAborted probe.token ∉ out) ∨ probe ∈ out.filterMap issuedProbe := by
  induction out generalizing tasks with
  | nil => exact Or.inl ⟨h, List.not_mem_nil⟩
  | cons e out ih =>
      have hlater : ∀ {e'}, e' ∈ out → issuedProbe e' = some probe →
          probe ∈ (e :: out).filterMap issuedProbe :=
        fun hmem he => List.mem_filterMap.mpr ⟨_, List.mem_cons_of_mem _ hmem, he⟩
      rcases ih (show probe ∈ ((tasks.step e).after out).probes from h) with ⟨hmem, hkeep⟩ | hnew
      · rcases probe_step hmem with hold | hissued
        · refine Or.inl ⟨hold, fun habort => ?_⟩
          rcases List.mem_cons.mp habort with rfl | hrest
          · exact of_decide_eq_true (List.mem_filter.mp hmem).2 rfl
          · exact hkeep hrest
        · exact Or.inr (List.mem_filterMap.mpr ⟨e, List.mem_cons_self, hissued⟩)
      · obtain ⟨e', hmem, he⟩ := List.mem_filterMap.mp hnew
        exact Or.inr (hlater hmem he)

/-- Fresh handles keep the handles of the running probes different. -/
theorem handles_nodup_after {tasks : Tasks} {out : List Effect}
    (h : (tasks.probes.map Ticket.token ++ (out.filterMap issuedProbe).map Ticket.token).Nodup) :
    ((tasks.after out).probes.map Ticket.token).Nodup := by
  induction out generalizing tasks with
  | nil =>
      rw [List.filterMap_nil, List.map_nil, List.append_nil] at h
      exact h
  | cons e out ih =>
      refine @ih (tasks.step e) ?_
      cases e with
      | probeSpawned task name watched => exact List.perm_middle.nodup_iff.mp h
      | probeAborted task =>
          have hsub : (List.map Ticket.token
              (tasks.probes.filter (fun probe => probe.token ≠ task))).Sublist
              (tasks.probes.map Ticket.token) := List.filter_sublist.map _
          exact h.sublist (hsub.append (List.Sublist.refl _))
      | _ => exact h

/-! ## Transitions out of Running and into it -/

/-- **A running service** stays as it is, or leaves Running and has its probe aborted. -/
theorem transition_running {shutdown : Bool} {name : String} {action : Action} {s : Service}
    {entry' : Option Service} {out : List Effect} {process : ServiceProcess} {pty : Option Pty}
    (h : Transition shutdown name action (some s) out entry')
    (hst : s.state.status = .running process pty) :
    (∃ s', entry' = some s' ∧ s'.state.status = s.state.status
        ∧ s'.state.livenessProbe = s.state.livenessProbe ∧ s'.config = s.config
        ∧ Lacks startsSomething out ∧ action ≠ .thaw)
      ∨ (∀ s', entry' = some s' → ∀ process pty, s'.state.status ≠ .running process pty)
        ∧ ∀ task, s.state.livenessProbe = some task → .probeAborted task ∈ out := by
  have hdead : isDead s.state.status = true → False := fun h => by rw [hst] at h; exact nomatch h
  have habort : ∀ {task : AbortHandle}, s.state.livenessProbe = some task →
      Effect.probeAborted task ∈ abortTask .probeAborted s.state.livenessProbe :=
    fun htask => by rw [htask]; exact List.mem_cons_self
  -- an update to a status that is not Running
  have hleft : ∀ {s' : Service} {status : ServiceStatus},
      s'.state.status = status → (∀ process pty, status ≠ .running process pty) →
      ∀ t, some s' = some t → ∀ process pty, t.state.status ≠ .running process pty := by
    intro s' status hstatus hne t ht
    rw [← Option.some.inj ht, hstatus]
    exact hne
  cases h with
  | keep hu => exact Or.inl ⟨_, rfl, hu.status_eq, hu.probe_eq, hu.config_eq, .nil, nofun⟩
  | signal _ hout =>
      refine Or.inl ⟨s, rfl, rfl, rfl, rfl, ?_, nofun⟩
      rcases hout with ⟨cmd, rfl⟩ | ⟨sig, rfl⟩
      · exact .cons rfl .nil
      · exact lacks_sent rfl rfl
  | @log _ _ line hs => exact Or.inl ⟨_, rfl, hs ▸ rfl, hs ▸ rfl, hs ▸ rfl, .nil, nofun⟩
  | freeze _ hu =>
      exact Or.inr ⟨hleft hu.status_eq nofun, fun task ht => List.mem_append_left _ (habort ht)⟩
  | terminateRunning _ _ _ hu =>
      exact Or.inr ⟨hleft hu.status_eq nofun,
        fun task ht => List.mem_append_left _ (List.mem_append_left _ (habort ht))⟩
  | exited _ hu =>
      exact Or.inr ⟨hleft hu.status_eq nofun, fun task ht => List.mem_cons_of_mem _ (habort ht)⟩
  | start _ hd _ | stopDead hd _ | pruneDead hd | restartDead _ hd _ => exact (hdead hd).elim
  | thaw hother _ | merge _ hother _ | terminateFrozen _ hother _ | stopped hother _ | pruned hother
  | restarted _ hother _ | stranded _ hother _ _ => exact nomatch hst.symm.trans hother

/-- **A service that comes to run** was started or thawed, and is probed if it has
    a probe configured. -/
theorem transition_begins {shutdown : Bool} {name : String} {action : Action}
    {entry : Option Service} {s' : Service} {out : List Effect} {process : ServiceProcess}
    {pty : Option Pty} (h : Transition shutdown name action entry out (some s'))
    (hst' : s'.state.status = .running process pty)
    (hbefore : ∀ s, entry = some s → ∀ process pty, s.state.status ≠ .running process pty)
    (htended : ∀ s, entry = some s → Tended s) :
    (action = .thaw ∨ .spawned name process ∈ out)
      ∧ (s'.config.liveness.isSome = true → s'.state.livenessProbe.isSome = true)
      ∧ ∀ task, s'.state.livenessProbe = some task → .probeSpawned task name (some process) ∈ out := by
  have hnone : ∀ {s : Service}, entry = some s → s.state.livenessProbe = none :=
    fun {s} heq => probe_none_of_tended (htended s heq) (hbefore s heq)
  -- the handle and the effects of `spawn_liveness_probe`, with no handle before
  have hprobed : ∀ {s : Service} {task : AbortHandle}, s'.config = s.config →
      s'.state.livenessProbe = probeHandle s.config none task →
      (s'.config.liveness.isSome = true → s'.state.livenessProbe.isSome = true)
        ∧ ∀ task', s'.state.livenessProbe = some task' →
          .probeSpawned task' name (some process) ∈ probeEffects s.config task name process := by
    intro s task hconfig hprobe
    rw [hconfig, hprobe]
    unfold probeHandle probeEffects
    cases s.config.liveness.isSome
    · exact ⟨nofun, nofun⟩
    · refine ⟨fun _ => rfl, fun task' ht => ?_⟩
      cases ht
      exact List.mem_cons_self
  have hstarted : ∀ {s : Service} {reason : StartReason} {out : List Effect},
      Start name reason s none out s' →
      .spawned name process ∈ out
        ∧ (s'.config.liveness.isSome = true → s'.state.livenessProbe.isSome = true)
        ∧ ∀ task, s'.state.livenessProbe = some task → .probeSpawned task name (some process) ∈ out := by
    intro s reason out hstart
    cases hstart with
    | running hu _ _ _ =>
        cases hu.status_eq.symm.trans hst'
        obtain ⟨hsome, hspawned⟩ := hprobed hu.config_eq hu.probe_eq
        exact ⟨List.mem_append_right _ List.mem_cons_self, hsome, fun task ht =>
          List.mem_append_right _ (List.mem_cons_of_mem _ (hspawned task ht))⟩
    | failed hu _ => exact nomatch hu.status_eq.symm.trans hst'
    | noPty hu => exact nomatch hu.status_eq.symm.trans hst'
  cases h with
  | start _ _ hstart | restartDead _ _ hstart =>
      rw [hnone rfl] at hstart
      obtain ⟨hspawned, hprobe⟩ := hstarted hstart
      exact ⟨Or.inr hspawned, hprobe⟩
  | restarted _ _ hstart =>
      obtain ⟨hspawned, hsome, hprobe⟩ := hstarted hstart
      exact ⟨Or.inr (List.mem_append_right _ hspawned), hsome,
        fun task ht => List.mem_append_right _ (hprobe task ht)⟩
  | thaw _ hu =>
      cases hu.status_eq.symm.trans hst'
      have hprobe := hu.probe_eq
      rw [hnone rfl] at hprobe
      obtain ⟨hsome, hspawned⟩ := hprobed hu.config_eq hprobe
      exact ⟨Or.inl rfl, hsome, fun task ht => List.mem_append_right _ (hspawned task ht)⟩
  | @keep s _ hu | @stopDead s _ _ hu =>
      exact absurd (hu.status_eq.symm.trans hst') (hbefore s rfl process pty)
  | signal _ _ => exact absurd hst' (hbefore s' rfl process pty)
  | @log s _ line hs =>
      subst hs
      exact absurd hst' (hbefore s rfl process pty)
  | create _ hs => exact nomatch hs.status.symm.trans hst'
  | freeze _ hu | merge _ _ hu | terminateFrozen _ _ hu | terminateRunning _ _ _ hu | exited _ hu
  | stopped _ hu => exact nomatch hu.status_eq.symm.trans hst'
  | stranded _ _ hstatus _ => exact nomatch hstatus.symm.trans hst'

/-! ## The invariant -/

/-- A running service has been probed since its latest start or thaw, if it has a
    probe configured. -/
def Probed (m : Machine) : Prop :=
  ∀ name s process pty, m.get? name = some s → s.state.status = .running process pty →
    (s.config.liveness.isSome = true → s.state.livenessProbe.isSome = true)
      ∧ ∀ task, s.state.livenessProbe = some task → ∃ m₀, ProbedSince name process task m₀ m

/-- **The invariant**: the probes that run are those the running services show. -/
structure OneProbeEach (sys : System) : Prop where
  reached : Reached sys.machine
  nodup : (sys.tasks.probes.map Ticket.token).Nodup
  current : ∀ probe ∈ sys.tasks.probes, Current sys.machine probe
  probed : Probed sys.machine

/-- A step of another service, or one that starts nothing, is no start or thaw of this one. -/
theorem not_startsOrThaws {m m' : Machine} {name : String} {process : ServiceProcess}
    {label : Label} {out : List Effect} (hout : m'.trace = m.trace ++ out)
    (hthaw : label ≠ .act name .thaw)
    (hspawn : ∀ e ∈ out, ∀ started ∈ startedName e, started ≠ name) :
    ¬ StartsOrThaws name process m label m' := by
  rintro (hlabel | hmem)
  · exact hthaw hlabel
  · rw [newEffects_of_append hout] at hmem
    exact hspawn _ hmem name rfl rfl

theorem probed_step {m m' : Machine} {label : Label} {out : List Effect} (htended : AllTended m)
    (hreached : Reached m) (hI : Probed m) (h : Lifecycle m label m')
    (hout : m'.trace = m.trace ++ out) : Probed m' := by
  intro name s process pty hget hst
  have hrunning : RunningOn name process m' := ⟨s, pty, hget, hst⟩
  -- a service that ran before goes on, unless this step starts or thaws it
  have hwent : ∀ {s₀ : Service}, m.get? name = some s₀ → s.state.status = s₀.state.status →
      s.state.livenessProbe = s₀.state.livenessProbe → s.config = s₀.config →
      label ≠ .act name .thaw → (∀ e ∈ out, ∀ started ∈ startedName e, started ≠ name) →
      (s.config.liveness.isSome = true → s.state.livenessProbe.isSome = true)
        ∧ ∀ task, s.state.livenessProbe = some task → ∃ m₀, ProbedSince name process task m₀ m' := by
    intro s₀ hget₀ hstatus hprobe hconfig hthaw hspawn
    obtain ⟨hsome, hsince⟩ := hI name s₀ process pty hget₀ (hstatus.symm.trans hst)
    rw [hconfig, hprobe]
    refine ⟨hsome, fun task htask => ?_⟩
    obtain ⟨m₀, hm₀, hrun⟩ := hsince task htask
    exact ⟨m₀, hm₀, hrun.went h ⟨hrunning, not_startsOrThaws hout hthaw hspawn⟩⟩
  have hstep := h
  cases h with
  | @act acted action out' entry ht =>
      rw [write_trace] at hout
      obtain rfl := List.append_cancel_left hout
      by_cases hname : acted = name
      · subst hname
        rw [get?_write, if_pos rfl] at hget
        subst hget
        by_cases hbefore : ∃ s₀ process₀ pty₀, m.get? acted = some s₀
            ∧ s₀.state.status = .running process₀ pty₀
        · obtain ⟨s₀, process₀, pty₀, hget₀, hst₀⟩ := hbefore
          rw [hget₀] at ht
          rcases transition_running ht hst₀ with
            ⟨s', heq, hstatus, hprobe, hconfig, hlacks, hthaw⟩ | ⟨hleft, -⟩
          · cases heq
            refine hwent hget₀ hstatus hprobe hconfig (fun hl => hthaw (Label.act.inj hl).2) ?_
            intro e hmem started hs
            rw [startedName_of_lacks hlacks e hmem] at hs
            exact nomatch hs
          · exact absurd hst (hleft s rfl process pty)
        · obtain ⟨hbegins, hsome, hspawned⟩ := transition_begins ht hst
            (fun s₀ hget₀ process₀ pty₀ hst₀ => hbefore ⟨s₀, process₀, pty₀, hget₀, hst₀⟩)
            (fun s₀ hget₀ => htended acted s₀ hget₀)
          refine ⟨hsome, fun task htask => ⟨m, hreached, .began hstep ⟨?_, hrunning, ?_⟩⟩⟩
          · refine hbegins.imp (fun haction => by rw [haction]) fun hmem => ?_
            rw [newEffects_of_append (write_trace _)]
            exact hmem
          · rw [newEffects_of_append (write_trace _)]
            exact hspawned task htask
      · rw [get?_write, if_neg hname] at hget
        refine hwent hget rfl rfl rfl (fun hl => hname (Label.act.inj hl).1) ?_
        intro e hmem started hs heq
        rcases transition_starts ht with hlacks | ⟨-, hown, -⟩
        · rw [startedName_of_lacks hlacks e hmem] at hs
          exact nomatch hs
        · exact hname ((hown e hmem started hs).symm.trans heq)
  | foreign _ =>
      obtain rfl := List.append_cancel_left hout
      refine hwent hget rfl rfl rfl nofun fun e hmem started hs => ?_
      rw [List.mem_singleton.mp hmem] at hs
      exact nomatch hs
  | shutdown _ _ =>
      obtain rfl := List.self_eq_append_right.mp hout
      exact hwent hget rfl rfl rfl nofun fun _ hmem => nomatch hmem

/-- A probe that runs after a step is current: the step kept it, or issued it. -/
theorem current_step {sys : System} {m' : Machine} {label : Label} {out : List Effect}
    (hf : Fenced sys) (hI : OneProbeEach sys) (h : Lifecycle sys.machine label m')
    (hout : m'.trace = sys.machine.trace ++ out) {probe : ProbeTask}
    (hmem : probe ∈ (sys.tasks.after out).probes) : Current m' probe := by
  rcases mem_probes_after hmem with ⟨hold, hkeep⟩ | hissued
  · obtain ⟨s, process, pty, hget, hst, hitem, htask⟩ := hI.current probe hold
    cases h with
    | @act acted action out' entry ht =>
        rw [write_trace] at hout
        obtain rfl := List.append_cancel_left hout
        by_cases hname : acted = probe.name
        · subst hname
          rw [hget] at ht
          rcases transition_running ht hst with
            ⟨s', rfl, hstatus, hprobe, -⟩ | ⟨-, habort⟩
          · refine ⟨s', process, pty, ?_, hstatus.trans hst, hitem, hprobe.trans htask⟩
            rw [get?_write, if_pos rfl]
          · exact absurd (habort _ htask) hkeep
        · refine ⟨s, process, pty, ?_, hst, hitem, htask⟩
          rw [get?_write, if_neg hname, hget]
    | foreign _ | shutdown _ _ => exact ⟨s, process, pty, hget, hst, hitem, htask⟩
  · rw [current_iff_shown]
    obtain ⟨⟨name, kill, timer, shown, hr⟩, -⟩ := lifecycle_renewed hf.consistent hf.tended h hout
    obtain ⟨rfl, hshown⟩ := hr.probes.issued_shown hissued
    rw [hr.probes_eq, Function.update_self, hshown]

theorem oneProbeEach_beat {sys sys' : System} {label : Label} (hf : Fenced sys)
    (hI : OneProbeEach sys) (h : Net sys (some label) sys') : OneProbeEach sys' := by
  cases h with
  | beat hstep hout _ hfresh =>
      refine ⟨reached_snoc hI.reached hstep, handles_nodup_after ?_,
        fun probe => current_step hf hI hstep hout,
        probed_step hf.tended hI.reached hI.probed hstep hout⟩
      refine List.nodup_append.mpr ⟨hI.nodup, hfresh.handles_nodup, ?_⟩
      rintro task hold task' hnew rfl
      obtain ⟨probe, hmem, rfl⟩ := List.mem_map.mp hold
      exact hfresh.handles_new _ hnew (Or.inr ⟨probe, Or.inl hmem, rfl⟩)

/-- A probe may end, and the channel may change. -/
theorem oneProbeEach_sublist {sys : System} {tasks : Tasks} {queue : List Message}
    (hI : OneProbeEach sys) (hsub : tasks.probes.Sublist sys.tasks.probes) :
    OneProbeEach ⟨sys.machine, tasks, queue⟩ :=
  ⟨hI.reached, hI.nodup.sublist (hsub.map _), fun probe hmem => hI.current probe (hsub.subset hmem),
    hI.probed⟩

theorem oneProbeEach_step {sys sys' : System} {move : SysMove} (hf : Fenced sys)
    (hI : OneProbeEach sys) (h : SysStep sys move sys') : OneProbeEach sys' := by
  cases h with
  | @received message rest os reply m' hqueue _ hevent hspawns hfresh =>
      have hmid := beats_invariant oneProbeEach_beat hf hI hevent hspawns hfresh
      exact oneProbeEach_sublist hmid (.refl _)
  | posted _ _ | timerSent _ _ => exact oneProbeEach_sublist hI (.refl _)
  | probeSent _ _ | probeEnded _ => exact oneProbeEach_sublist hI List.erase_sublist
  | logged hstep => exact oneProbeEach_beat hf hI (beat_of_logged hf hstep)

theorem sysReachable_oneProbeEach {sys : System} (h : SysReachable sys) : OneProbeEach sys :=
  sysReachable_invariant (fun files lines _ =>
    { reached := ⟨files, lines, [], .nil _⟩
      nodup := .nil
      current := nofun
      probed := fun _ _ _ _ hget => nomatch hget }) oneProbeEach_step h

/-- Nobody else shows the handle of a probe that runs. -/
theorem handle_unique {sys : System} {probe : ProbeTask} {name : String} {s : Service}
    (hf : Fenced sys) (hmem : probe ∈ sys.tasks.probes) (hget : sys.machine.get? name = some s)
    (hhandle : s.state.livenessProbe = some probe.token) : name = probe.name := by
  have hne : s.state.livenessProbe ≠ none := by rw [hhandle]; exact Option.some_ne_none _
  obtain ⟨process, pty, hst⟩ := hf.tended name s hget hne
  have hshow : probeTable sys.machine name = some (some process, probe.token) := by
    show (sys.machine.get? name).bind _ = _
    rw [hget, Option.bind_some, hst, hhandle]
    rfl
  exact (hf.probes name _ probe hshow (Or.inl hmem)).1.symm

/-- Two probes that run for one service are one. -/
theorem probes_unique {sys : System} {probe probe' : ProbeTask} (hI : OneProbeEach sys)
    (hmem : probe ∈ sys.tasks.probes) (hmem' : probe' ∈ sys.tasks.probes)
    (hname : probe.name = probe'.name) : probe = probe' := by
  obtain ⟨s, _, _, hget, -, -, htask⟩ := hI.current probe hmem
  obtain ⟨s', _, _, hget', -, -, htask'⟩ := hI.current probe' hmem'
  rw [hname, hget'] at hget
  cases hget
  exact List.inj_on_of_nodup_map hI.nodup hmem hmem' (Option.some.inj (htask.symm.trans htask'))

/-- **HEADLINE.** A probe task that runs belongs to exactly one service, which is
    Running, shows the handle of the task and had it spawned by its latest start or
    thaw; no service has two; only a Running service has a handle; and every
    Running service with a probe configured has had one spawned since its latest
    start or thaw. -/
theorem one_probe_each {sys : System} (h : SysReachable sys) :
    (∀ probe ∈ sys.tasks.probes, ∃ s process pty m₀,
        sys.machine.get? probe.name = some s ∧ s.state.status = .running process pty
          ∧ s.state.livenessProbe = some probe.token ∧ probe.item = some process
          ∧ ProbedSince probe.name process probe.token m₀ sys.machine
          ∧ ∀ other t, sys.machine.get? other = some t →
            t.state.livenessProbe = some probe.token → other = probe.name)
      ∧ (sys.tasks.probes.map Ticket.token).Nodup
      ∧ (∀ probe ∈ sys.tasks.probes, ∀ probe' ∈ sys.tasks.probes,
          probe.name = probe'.name → probe = probe')
      ∧ (∀ name s, sys.machine.get? name = some s → s.state.livenessProbe ≠ none →
          ∃ process pty, s.state.status = .running process pty)
      ∧ ∀ name s process pty, sys.machine.get? name = some s →
          s.state.status = .running process pty → s.config.liveness.isSome = true →
          ∃ task m₀, s.state.livenessProbe = some task
            ∧ ProbedSince name process task m₀ sys.machine := by
  have hf := sysReachable_fenced h
  have hI := sysReachable_oneProbeEach h
  refine ⟨fun probe hmem => ?_, hI.nodup, fun probe hmem probe' hmem' => probes_unique hI hmem hmem',
    hf.tended, fun name s process pty hget hst hliveness => ?_⟩
  · obtain ⟨s, process, pty, hget, hst, hitem, htask⟩ := hI.current probe hmem
    obtain ⟨m₀, hsince⟩ := (hI.probed probe.name s process pty hget hst).2 probe.token htask
    exact ⟨s, process, pty, m₀, hget, hst, htask, hitem, hsince,
      fun other t => handle_unique hf hmem⟩
  · obtain ⟨hsome, hsince⟩ := hI.probed name s process pty hget hst
    obtain ⟨task, htask⟩ := Option.isSome_iff_exists.mp (hsome hliveness)
    obtain ⟨m₀, hm₀⟩ := hsince task htask
    exact ⟨task, m₀, htask, hm₀⟩

/-- `web` is created after the shell. -/
def webRunning : List Choice :=
  [.receive (steadyOs 50 9 []), .post createWeb.2, .receive createWeb.1]

/-- Here the probe of `web`. -/
theorem one_probe_each_web :
    ∃ task m₀, ProbedSince "web" ⟨100, none, 0⟩ task m₀ (systemAfter webRunning).machine := by
  have hshown : ((systemAfter webRunning).machine.get? "web").map
      (fun s => (s.state.status, s.config.liveness.isSome))
      = some (.running ⟨100, none, 0⟩ none, true) := by decide +kernel
  obtain ⟨s, hget, hs⟩ := Option.map_eq_some_iff.mp hshown
  obtain ⟨hst, hliveness⟩ := Prod.mk.inj hs
  obtain ⟨task, m₀, -, hsince⟩ := (one_probe_each (systemAfter_reachable (by decide +kernel))).2.2.2.2
    "web" s ⟨100, none, 0⟩ none hget hst hliveness
  exact ⟨task, m₀, hsince⟩

end BeamProbeTasks
