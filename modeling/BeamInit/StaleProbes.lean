import BeamInit.Network

/-! # Stale probe failures — what a late `ProbeFailed` does

    A failure that was on the channel when its probe was aborted is handled all
    the same, and it names the service only.  It is ignored if nobody has that
    name any more or the service is being stopped; otherwise it restarts, kills
    or at least writes to the log of whatever has the name by then. -/

namespace BeamStaleProbes

open BeamApi BeamOs BeamLogs BeamPublisher BeamService BeamManager BeamCommands BeamMainLoop
open BeamLifecycle BeamOperations BeamRefinement BeamConsistency BeamChannel BeamTickets
open BeamNetwork Runs Fence

/-! ## Current failures -/

/-- The service still runs as the process the probe watched, with that very probe:
    it has not been stopped, frozen, pruned or restarted since. -/
def Current (m : Machine) (probe : ProbeTask) : Prop :=
  ∃ s process pty, m.get? probe.name = some s ∧ s.state.status = .running process pty
    ∧ probe.item = some process ∧ s.state.livenessProbe = some probe.token

/-- A failure is current if its service shows the very probe. -/
theorem current_iff_shown {m : Machine} {probe : ProbeTask} :
    Current m probe ↔ probeTable m probe.name = some (probe.item, probe.token) := by
  constructor
  · rintro ⟨s, process, pty, hget, hst, hitem, htask⟩
    show (m.get? probe.name).bind _ = _
    rw [hget, Option.bind_some, hst, htask, hitem]
    rfl
  · intro hshow
    obtain ⟨s, hget, hs⟩ := Option.bind_eq_some_iff.mp hshow
    unfold watcher at hs
    split at hs
    · rename_i process pty task hst htask
      obtain ⟨hitem, htoken⟩ := Prod.mk.inj (Option.some.inj hs)
      exact ⟨s, process, pty, hget, hst, hitem.symm, htask.trans (congrArg some htoken)⟩
    · exact nomatch hs

/-- What the table shows after an event it showed before, or the event issued it. -/
theorem shows_of_run {m m' : Machine} {labels : List Label} {out : List Effect} {name : String}
    {pair : Option ServiceProcess × AbortHandle} (hm : Consistent m) (htended : AllTended m)
    (hrun : Run Lifecycle m labels m') (hout : m'.trace = m.trace ++ out)
    (hspawns : SpawnsFresh m'.trace) (hshow : probeTable m' name = some pair) :
    probeTable m name = some pair ∨ pair.2 ∈ (out.filterMap issuedProbe).map Ticket.token := by
  induction labels generalizing m out with
  | nil => rw [hrun.eq_of_nil]; exact Or.inl hshow
  | cons label labels ih =>
      cases hrun with
      | cons hstep hrest =>
          obtain ⟨out₁, out₂, rfl, hout₁, hout₂⟩ := effects_split hstep hrest hout
          rw [List.filterMap_append, List.map_append, List.mem_append]
          obtain ⟨⟨entry, kill, timer, shown, hr⟩, htended₁⟩ := lifecycle_renewed hm htended hstep hout₁
          have hm₁ := consistent_step (spawnsFresh_before (run_trace hrest) hspawns) hm hstep
          rcases ih hm₁ htended₁ hrest hout₂ with hmid | hissued
          · rw [hr.probes_eq] at hmid
            rcases hr.probes.shows hmid with hold | hnew
            · exact Or.inl hold
            · exact Or.inr (Or.inl (List.mem_map.mpr ⟨_, hnew, rfl⟩))
          · exact Or.inr (Or.inr hissued)

/-- **A stale failure stays stale**, as long as it is on its way. -/
theorem stale_stays_stale {sys sys' : System} {move : SysMove} {probe : ProbeTask}
    (h : SysReachable sys) (hstep : SysStep sys move sys')
    (hmem : probe ∈ probesUnderway sys.tasks sys.queue) (hstale : ¬ Current sys.machine probe) :
    ¬ Current sys'.machine probe := by
  have hf := sysReachable_fenced h
  rw [current_iff_shown]
  intro hshow
  cases hstep with
  | @received _ _ _ _ m' _ _ hevent hspawns hfresh =>
      obtain ⟨labels, hrun, -⟩ := handleEvent_ok hevent
      rcases shows_of_run hf.consistent hf.tended hrun (newEffects_eq (run_trace hrun)) hspawns
        hshow with hold | hissued
      · exact hstale (current_iff_shown.mpr hold)
      · -- its handle is live, so no new probe has it
        exact hfresh.handles_new _ hissued (Or.inr ⟨probe, hmem, rfl⟩)
  | @logged name line m' hlog =>
      cases hlog with
      | @logged _ _ service hget =>
          have hout : (sys.machine.put name (pushLine service line) []).trace
              = sys.machine.trace ++ [] := rfl
          have hspawns : SpawnsFresh (sys.machine.put name (pushLine service line) []).trace := by
            rw [put_quiet_trace]
            exact hf.spawns
          rcases shows_of_run hf.consistent hf.tended (.single (act_log hget)) hout hspawns hshow
            with hold | hissued
          · exact hstale (current_iff_shown.mpr hold)
          · exact nomatch hissued
  | posted _ _ | probeSent _ _ | probeEnded _ | timerSent _ _ =>
      exact hstale (current_iff_shown.mpr hshow)

/-- **What makes a failure stale**: its service is frozen, terminated or reaped. -/
theorem current_lost {m m' : Machine} {label : Label} {probe : ProbeTask}
    (h : Lifecycle m label m') (hcurrent : Current m probe) (hstale : ¬ Current m' probe) :
    ∃ action, label = .act probe.name action
      ∧ (action = .freeze ∨ (∃ request, action = .terminate request) ∨ ∃ pid, action = .reap pid) := by
  obtain ⟨s, process, pty, hget, hst, hitem, htask⟩ := hcurrent
  cases h with
  | @act name action out entry ht =>
      -- an entry that still runs with the same probe keeps the failure current
      have hlost : ∀ s', name = probe.name → entry = some s' →
          s'.state.status = s.state.status → s'.state.livenessProbe = s.state.livenessProbe →
          False := by
        rintro s' hname rfl hstatus hprobe
        refine hstale ⟨s', process, pty, ?_, hstatus.trans hst, hitem, hprobe.trans htask⟩
        rw [get?_write, if_pos hname]
      by_cases hname : name = probe.name
      · subst hname
        rw [hget] at ht
        refine ⟨action, rfl, ?_⟩
        cases ht with
        | freeze _ _ => exact Or.inl rfl
        | stopDead _ _ | pruneDead _ | restartDead _ _ _ | merge _ _ _ | terminateFrozen _ _ _
        | terminateRunning _ _ _ _ => exact Or.inr (Or.inl ⟨_, rfl⟩)
        | exited _ _ | stopped _ _ | pruned _ | restarted _ _ _ | stranded _ _ _ _ =>
            exact Or.inr (Or.inr ⟨_, rfl⟩)
        | keep hu => exact absurd (hlost _ rfl rfl hu.status_eq hu.probe_eq) id
        | signal _ _ => exact absurd (hlost s rfl rfl rfl rfl) id
        | log hs => exact absurd (hlost _ rfl rfl (hs ▸ rfl) (hs ▸ rfl)) id
        | start _ hdead _ => rw [hst] at hdead; exact nomatch hdead
        | thaw hfrozen _ => rw [hst] at hfrozen; exact nomatch hfrozen
      · refine absurd ⟨s, process, pty, ?_, hst, hitem, htask⟩ hstale
        rw [get?_write, if_neg hname, hget]
  | foreign _ => exact absurd ⟨s, process, pty, hget, hst, hitem, htask⟩ hstale
  | shutdown _ _ => exact absurd ⟨s, process, pty, hget, hst, hitem, htask⟩ hstale

/-! ## Handling a failure -/

/-- A failure that names `name` is ignored: nobody has the name, or the service is
    being stopped already and no shutdown has begun. -/
def Ignored (m : Machine) (name : String) : Prop :=
  m.get? name = none
    ∨ m.mgr.shutdown = false ∧ name ≠ bootstrapName
      ∧ ∃ s process afterStop kill, m.get? name = some s
        ∧ s.state.status = .stopping process afterStop kill

section Handling

variable {os : Os} {m m' : Machine} {name : String} {s : Service}

/-- Root may use every service. -/
theorem root_allowed (s : Service) : s.checkCredentials .root = .ok () :=
  Service.checkCredentials_iff.mpr (Or.inl rfl)

/-- The bootstrap service, and a restart during the shutdown, are refused. -/
theorem stopServiceCmd_refused (os : Os) {credentials : Credentials} (requested : AfterStop)
    (hget : m.get? name = some s) (hcred : s.checkCredentials credentials = .ok ())
    (hrefused : name = bootstrapName ∨ m.mgr.shutdown ∧ requested.isRestart) :
    ∃ e, stopServiceCmd os m credentials name requested = .ok (.error e, m) := by
  rw [stopServiceCmd_eq, getService_iff.mpr ⟨hget, hcred⟩]
  dsimp only
  by_cases hboot : name = bootstrapName
  · exact ⟨_, if_pos hboot⟩
  · rw [if_neg hboot]
    exact ⟨_, if_pos (hrefused.resolve_left hboot)⟩

/-- Any other request is passed on with the credentials of the service. -/
theorem stopServiceCmd_accepted {credentials : Credentials} {requested : AfterStop}
    (hget : m.get? name = some s) (hcred : s.checkCredentials credentials = .ok ())
    (hboot : name ≠ bootstrapName) (hshut : ¬ (m.mgr.shutdown ∧ requested.isRestart)) :
    stopServiceCmd os m credentials name requested
      = terminateServiceInner os m s.config.credentials name requested := by
  rw [stopServiceCmd_eq, getService_iff.mpr ⟨hget, hcred⟩]
  dsimp only
  rw [if_neg hboot, if_neg hshut]

/-- Setting the status a service shows already changes nothing. -/
theorem setStatus_same (hm : Consistent m) (hget : m.get? name = some s) :
    (s.replaceStatus .dummy).setStatus s.state.status = .ok s := by
  have hsame := s.state.serviceStatusPublisher.publish_same rfl
  rw [Service.setStatus]
  rw [hm.shown name s hget]
  show Except.ok { s with state := { s.state with
    serviceStatusPublisher := s.state.serviceStatusPublisher.publish _ } } = _
  rw [hsame]

/-- An automatic restart of a stopping service changes nothing: its outcome stays,
    and the status it shows already is not sent again. -/
theorem merge_automatic_same {credentials : Credentials} {process : ServiceProcess}
    {afterStop : AfterStop} {kill : Option PendingKill} (hm : Consistent m)
    (hget : m.get? name = some s) (hst : s.state.status = .stopping process afterStop kill) :
    terminateServiceInner os m credentials name (.restart .automatic) = .ok (.ok (), m) := by
  have hmerge : afterStop.merge (.restart .automatic) = afterStop := by cases afterStop <;> rfl
  have hset := setStatus_same hm hget
  rw [hst] at hset
  rw [terminateServiceInner]
  rw [hget]
  dsimp only
  rw [hst]
  dsimp only
  rw [hmerge, hset]
  show Except.ok (Except.ok (), m.put name s []) = _
  rw [put_same hget]
  show Except.ok (Except.ok (), { m with trace := m.trace ++ [] }) = _
  rw [List.append_nil]

theorem sentEffects_ne_nil (process : ServiceProcess) (sig : Int) : sentEffects process sig ≠ [] := by
  rw [sentEffects]
  cases process.monitorTx <;> exact List.cons_ne_nil _ _

/-- An automatic restart of a service that is not stopping does something. -/
theorem restart_automatic_acts {credentials : Credentials} {result : Except ServiceError Unit}
    (h : terminateServiceInner os m credentials name (.restart .automatic) = .ok (result, m'))
    (hget : m.get? name = some s) (hshut : m.mgr.shutdown = false)
    (hcred : s.checkCredentials credentials = .ok ())
    (hst : ∀ process afterStop kill, s.state.status ≠ .stopping process afterStop kill) :
    ∃ out, out ≠ [] ∧ m'.trace = m.trace ++ out := by
  obtain ⟨hstep, -⟩ := terminateServiceInner_ok h hget fun _ => ⟨hshut, hcred⟩
  obtain ⟨out, entry, ht, rfl⟩ := hstep.act_inv
  refine ⟨out, ?_, write_trace entry⟩
  rw [hget] at ht
  cases ht with
  | restartDead _ _ hstart => cases hstart <;> simp
  | merge _ hstopping _ => exact absurd hstopping (hst _ _ _)
  | terminateFrozen _ _ _ => exact sentEffects_ne_nil _ _
  | @terminateRunning _ _ process _ _ _ _ _ _ _ _ =>
      have := sentEffects_ne_nil process SIGTERM
      simp [this]

theorem pushLine_ne (s : Service) (line : String) : pushLine s line ≠ s := by
  intro heq
  have : (pushLine s line).state.logs.queue.nextIdx = s.state.logs.queue.nextIdx := by rw [heq]
  exact absurd this (Nat.succ_ne_self _)

/-- The failure of a service that is gone changes nothing. -/
theorem probeFailed_absent (h : handleProbeFailed os m name = .ok m') (hget : m.get? name = none) :
    m' = m := by
  obtain ⟨result, m₁, hstop, hlog⟩ := handleProbeFailed_ok h
  -- the lookup fails, and so does the one for the log
  rcases stopServiceCmd_ok hstop with ⟨rfl, -⟩ | ⟨⟨-, s, hs, -⟩, -⟩
  · rcases hlog with ⟨rfl, -⟩ | ⟨s, line, e, -, hs, -⟩
    · rfl
    · rw [hget] at hs; exact nomatch hs
  · rw [hget] at hs; exact nomatch hs

/-- A refused restart goes to the log of the service. -/
theorem probeFailed_refused (h : handleProbeFailed os m name = .ok m') (hget : m.get? name = some s)
    (hrefused : name = bootstrapName ∨ m.mgr.shutdown = true) :
    ∃ line, m'.get? name = some (pushLine s line) := by
  obtain ⟨result, m₁, hstop, hlog⟩ := handleProbeFailed_ok h
  obtain ⟨e, he⟩ := stopServiceCmd_refused os (.restart .automatic) hget
    (root_allowed s) (hrefused.imp_right fun hshut => ⟨hshut, rfl⟩)
  rw [he] at hstop
  cases hstop
  rcases hlog with ⟨-, hok | hnone⟩ | ⟨t, line, -, -, ht, rfl⟩
  · exact nomatch hok
  · rw [hget] at hnone; exact nomatch hnone
  · rw [hget] at ht
    cases ht
    exact ⟨line, get?_put_self⟩

/-- Nor does one of a service that is being stopped. -/
theorem probeFailed_stopping {process : ServiceProcess} {afterStop : AfterStop}
    {kill : Option PendingKill} (hm : Consistent m) (h : handleProbeFailed os m name = .ok m')
    (hget : m.get? name = some s) (hboot : name ≠ bootstrapName) (hshut : m.mgr.shutdown = false)
    (hst : s.state.status = .stopping process afterStop kill) : m' = m := by
  obtain ⟨result, m₁, hstop, hlog⟩ := handleProbeFailed_ok h
  rw [stopServiceCmd_accepted hget (root_allowed s) hboot
    (fun hand => by rw [hshut] at hand; exact nomatch hand.1), merge_automatic_same hm hget hst]
    at hstop
  cases hstop
  rcases hlog with ⟨rfl, -⟩ | ⟨_, _, _, he, -⟩
  · rfl
  · exact nomatch he

/-- In any other status the failure acts on the service. -/
theorem probeFailed_acts (h : handleProbeFailed os m name = .ok m') (hget : m.get? name = some s)
    (hboot : name ≠ bootstrapName) (hshut : m.mgr.shutdown = false)
    (hst : ∀ process afterStop kill, s.state.status ≠ .stopping process afterStop kill) :
    ∃ out, out ≠ [] ∧ m'.trace = m.trace ++ out := by
  obtain ⟨result, m₁, hstop, hlog⟩ := handleProbeFailed_ok h
  rw [stopServiceCmd_accepted hget (root_allowed s) hboot
    (fun hand => by rw [hshut] at hand; exact nomatch hand.1)] at hstop
  obtain ⟨out, hne, htrace⟩ := restart_automatic_acts hstop hget hshut
    (Service.checkCredentials_iff.mpr (Or.inr rfl)) hst
  refine ⟨out, hne, ?_⟩
  rcases hlog with ⟨rfl, -⟩ | ⟨_, _, _, -, -, rfl⟩
  · exact htrace
  · exact (List.append_nil _).trans htrace

/-- **A failure is without effect exactly when it is ignored.** -/
theorem probeFailed_unchanged_iff (hm : Consistent m) (h : handleProbeFailed os m name = .ok m') :
    m' = m ↔ Ignored m name := by
  cases hget : m.get? name with
  | none => exact iff_of_true (probeFailed_absent h hget) (Or.inl hget)
  | some s =>
      have hsome : ¬ m.get? name = none := by rw [hget]; exact Option.some_ne_none s
      by_cases hrefused : name = bootstrapName ∨ m.mgr.shutdown = true
      · refine iff_of_false (fun heq => ?_) ?_
        · obtain ⟨line, hline⟩ := probeFailed_refused h hget hrefused
          rw [heq, hget] at hline
          exact pushLine_ne s line (Option.some.inj hline).symm
        · rintro (hnone | ⟨hshut, hboot, -⟩)
          · exact hsome hnone
          · exact hrefused.elim hboot fun hdown => nomatch hshut.symm.trans hdown
      · obtain ⟨hboot, hup⟩ := not_or.mp hrefused
        have hshut : m.mgr.shutdown = false := Bool.eq_false_iff.mpr hup
        by_cases hstopping : ∃ process afterStop kill, s.state.status = .stopping process afterStop kill
        · obtain ⟨process, afterStop, kill, hst⟩ := hstopping
          exact iff_of_true (probeFailed_stopping hm h hget hboot hshut hst)
            (Or.inr ⟨hshut, hboot, s, process, afterStop, kill, hget, hst⟩)
        · refine iff_of_false (fun heq => ?_) ?_
          · obtain ⟨out, hne, htrace⟩ := probeFailed_acts h hget hboot hshut
              fun process afterStop kill hst => hstopping ⟨process, afterStop, kill, hst⟩
            rw [heq] at htrace
            exact hne (List.self_eq_append_right.mp htrace)
          · rintro (hnone | ⟨-, -, t, process, afterStop, kill, ht, hst⟩)
            · exact hsome hnone
            · rw [hget] at ht
              cases ht
              exact hstopping ⟨process, afterStop, kill, hst⟩

end Handling

end BeamStaleProbes
