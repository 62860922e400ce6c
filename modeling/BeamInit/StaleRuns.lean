import BeamInit.StaleProbes
import BeamInit.Shutdown

/-! # Runs with stale failures — when a stop is final

    A run keeps its word, that a stale failure changes nothing, exactly if every
    stale failure is handled where it is ignored; a stopped service then stays
    down until a client asks for it. -/

namespace BeamStaleRuns

open BeamApi BeamOs BeamService BeamManager BeamCommands BeamMainLoop BeamLifecycle BeamOperations
open BeamRefinement BeamConsistency BeamShutdown BeamChannel BeamTickets BeamNetwork
open BeamStaleProbes Runs

/-! ## Runs -/

/-- A stale failure changes nothing. -/
def Obeys (sys : System) (move : SysMove) (sys' : System) : Prop :=
  ∀ os probe reply, move = .received os (.probeFailed probe) reply →
    ¬ Current sys.machine probe → sys'.machine = sys.machine

/-- A stale failure is handled only where it is ignored. -/
def Guarded (sys : System) (move : SysMove) (_ : System) : Prop :=
  ∀ os probe reply, move = .received os (.probeFailed probe) reply →
    ¬ Current sys.machine probe → Ignored sys.machine probe.name

/-- A client's restart or creation of `name` that was not refused. -/
def Revives (name : String) (sys : System) (move : SysMove) (sys' : System) : Prop :=
  sys'.machine ≠ sys.machine ∧ ∃ os cmd credentials reply,
    move = .received os (.posted (.command cmd credentials)) reply
      ∧ (cmd = .restartService name ∨ ∃ service, cmd = .createService name service)

theorem guarded_iff_obeys {sys sys' : System} {move : SysMove} (h : SysReachable sys)
    (hstep : SysStep sys move sys') : Guarded sys move sys' ↔ Obeys sys move sys' := by
  have hm := (sysReachable_fenced h).consistent
  constructor
  · rintro hguard os probe reply rfl hstale
    cases hstep with
    | received _ _ hevent _ _ =>
        obtain ⟨m₁, hprobe, heq⟩ := bind_eq_ok.mp hevent
        cases heq
        exact (probeFailed_unchanged_iff hm hprobe).mpr (hguard _ probe _ rfl hstale)
  · rintro hobeys os probe reply rfl hstale
    have hsame := hobeys _ probe _ rfl hstale
    cases hstep with
    | received _ _ hevent _ _ =>
        obtain ⟨m₁, hprobe, heq⟩ := bind_eq_ok.mp hevent
        cases heq
        exact (probeFailed_unchanged_iff hm hprobe).mp hsame

/-- Nothing is running under the name, nor will be by itself: the service is gone,
    has no process, or is being stopped for good. -/
def AtRest (m : Machine) (name : String) : Prop :=
  ∀ s, m.get? name = some s → isSettled s.state.status = true

/-- No start of `name` between the two states. -/
def NoStart (name : String) (m m' : Machine) : Prop :=
  ∃ out, m'.trace = m.trace ++ out ∧ ∀ e ∈ out, startedName e ≠ some name

theorem NoStart.refl (name : String) (m : Machine) : NoStart name m m :=
  ⟨[], (List.append_nil _).symm, nofun⟩

theorem NoStart.trans {name : String} {m m' m'' : Machine} (h : NoStart name m m')
    (h' : NoStart name m' m'') : NoStart name m m'' := by
  obtain ⟨out, htrace, hout⟩ := h
  obtain ⟨out', htrace', hout'⟩ := h'
  refine ⟨out ++ out', ?_, List.forall_mem_append.mpr ⟨hout, hout'⟩⟩
  rw [htrace', htrace, List.append_assoc]

/-- A request that is not a restart leaves the service at rest. -/
theorem transition_stops {shutdown : Bool} {name : String} {request : AfterStop}
    {entry entry' : Option Service} {out : List Effect} (hrequest : request.isRestart = false)
    (h : Transition shutdown name (.terminate request) entry out entry') :
    ∀ s', entry' = some s' → isSettled s'.state.status = true := by
  rintro s' rfl
  cases h with
  | stopDead hdead hu => rw [hu.status_eq]; exact isSettled_of_isDead hdead
  | restartDead _ _ _ => exact nomatch hrequest
  | @merge _ _ _ afterStop _ _ _ _ hu =>
      rw [hu.status_eq]
      show (!(afterStop.merge request).isRestart) = true
      rw [merge_isRestart afterStop hrequest]
      rfl
  | terminateFrozen _ _ hu | terminateRunning _ _ _ hu =>
      rw [hu.status_eq]
      show (!request.isRestart) = true
      rw [hrequest]
      rfl

/-- A service at rest stays so, unless an action revives it. -/
theorem transition_rest {shutdown : Bool} {name : String} {action : Action}
    {entry entry' : Option Service} {out : List Effect}
    (h : Transition shutdown name action entry out entry')
    (hrest : ∀ s, entry = some s → isSettled s.state.status = true)
    (haction : revives action = false) :
    ∀ s', entry' = some s' → isSettled s'.state.status = true := by
  rintro s' rfl
  cases h with
  | create _ _ | start _ _ _ | restartDead _ _ _ => exact nomatch haction
  | keep hu => rw [hu.status_eq]; exact hrest _ rfl
  | signal _ _ => exact hrest _ rfl
  | stopDead hdead hu => rw [hu.status_eq]; exact isSettled_of_isDead hdead
  | freeze hst _ | thaw hst _ | terminateFrozen _ hst _ | terminateRunning _ hst _ _
  | restarted _ hst _ | stranded _ hst _ _ =>
      have := hrest _ rfl
      rw [hst] at this
      exact nomatch this
  | @merge _ _ _ afterStop request _ _ _ hu =>
      have hrequest : request.isRestart = false := by
        cases request with
        | stop | prune => rfl
        | restart reason => exact nomatch haction
      rw [hu.status_eq]
      show (!(afterStop.merge request).isRestart) = true
      rw [merge_isRestart afterStop hrequest]
      rfl
  | exited _ hu | stopped _ hu => rw [hu.status_eq]; rfl
  | @log s _ line hs => rw [hs]; exact hrest s rfl

theorem rest_step {m m' : Machine} {label : Label} {name : String} (hrest : AtRest m name)
    (hlabel : ∀ action, label = .act name action → revives action = false)
    (h : Lifecycle m label m') : AtRest m' name ∧ NoStart name m m' := by
  cases h with
  | @act other action out entry ht =>
      have hstarts := transition_starts ht
      by_cases hname : other = name
      · subst hname
        have haction := hlabel action rfl
        refine ⟨fun s hget => ?_, out, write_trace entry, fun e hmem => ?_⟩
        · rw [get?_write, if_pos rfl] at hget
          exact transition_rest ht hrest haction s hget
        · rcases hstarts with hlacks | ⟨-, -, hrevives | ⟨s, hget, hunsettled⟩⟩
          · rw [startedName_of_lacks hlacks e hmem]
            exact nofun
          · rw [haction] at hrevives
            exact nomatch hrevives
          · rw [hrest s hget] at hunsettled
            exact nomatch hunsettled
      · refine ⟨fun s hget => ?_, out, write_trace entry, fun e hmem hstarted => ?_⟩
        · rw [get?_write, if_neg hname] at hget
          exact hrest s hget
        · rcases hstarts with hlacks | ⟨-, hown, -⟩
          · rw [startedName_of_lacks hlacks e hmem] at hstarted
            exact nomatch hstarted
          · exact hname (hown e hmem name hstarted).symm
  | @foreign pid status _ =>
      exact ⟨hrest, [.reaped pid status], rfl, List.forall_mem_singleton.mpr nofun⟩
  | shutdown _ _ => exact ⟨hrest, .refl name m⟩

theorem rest_run {m m' : Machine} {labels : List Label} {name : String} (hrest : AtRest m name)
    (hlabels : ∀ label ∈ labels, ∀ action, label = .act name action → revives action = false)
    (h : Run Lifecycle m labels m') : AtRest m' name ∧ NoStart name m m' :=
  h.invariant_of (I := fun m' => AtRest m' name ∧ NoStart name m m')
    (fun hlabel ⟨hat, hno⟩ hstep =>
      ⟨(rest_step hat hlabel hstep).1, hno.trans (rest_step hat hlabel hstep).2⟩)
    hlabels ⟨hrest, .refl name m⟩

/-- The events that can revive a service. -/
theorem caused_revives {os : Os} {event : Event} {name : String} {action : Action}
    (h : Caused os event (.act name action)) (hrevives : revives action = true) :
    event = .probeFailed name ∨ ∃ cmd credentials, event = .command cmd credentials
      ∧ (cmd = .restartService name ∨ ∃ service, cmd = .createService name service) := by
  cases h with
  | @command cmd credentials _ _ htarget hserves =>
      refine Or.inr ⟨cmd, credentials, rfl, ?_⟩
      cases cmd with
      | createService other service =>
          obtain rfl := Option.some.inj htarget
          exact Or.inr ⟨service, rfl⟩
      | restartService other =>
          obtain rfl := Option.some.inj htarget
          exact Or.inl rfl
      | stopService other prune =>
          have hact : action = .terminate (if prune then .prune else .stop) := of_decide_eq_true hserves
          rw [hact] at hrevives
          cases prune <;> exact nomatch hrevives
      | freezeService _ | thawService _ =>
          rcases of_decide_eq_true hserves with rfl | rfl <;> exact nomatch hrevives
      | notifyPtyAttached _ | notifyPtyDetached _ | sendSignal _ _ | forceKillService _ _ =>
          obtain rfl := of_decide_eq_true hserves
          exact nomatch hrevives
      | showService _ | serviceLogs _ _ => exact nomatch hserves
      | listServices => exact nomatch htarget
  | restart => exact Or.inl rfl
  | log | reaped _ | stop _ => exact nomatch hrevives

/-- **The step lemma**: a service at rest stays at rest and is not started. -/
theorem rest_sysStep {sys sys' : System} {move : SysMove} {name : String} (h : SysReachable sys)
    (hstep : SysStep sys move sys') (hguard : Guarded sys move sys')
    (hnot : ¬ Revives name sys move sys') (hrest : AtRest sys.machine name) :
    AtRest sys'.machine name ∧ NoStart name sys.machine sys'.machine := by
  have hobeys := (guarded_iff_obeys h hstep).mp hguard
  by_cases hsame : sys'.machine = sys.machine
  · rw [hsame]
    exact ⟨hrest, .refl name _⟩
  cases hstep with
  | @received message _ os reply m' hqueue _ hevent _ _ =>
      obtain ⟨labels, hrun, hcaused⟩ := handleEvent_ok hevent
      refine rest_run hrest (fun label hmem action hlabel => ?_) hrun
      by_contra hrevives
      have hcause := hcaused label hmem
      rw [hlabel] at hcause
      have hhead : message ∈ sys.queue := hqueue ▸ List.mem_cons_self
      rcases caused_revives hcause (Bool.not_eq_false _ ▸ hrevives) with
        hprobe | ⟨cmd, credentials, hcmd, hkind⟩
      · -- a failure of a service at rest is stale, so it changed nothing
        cases message with
        | posted event =>
            have := sysReachable_posted h event hhead
            rw [show event = _ from hprobe] at this
            exact nomatch this
        | forceKill kill credentials => exact nomatch hprobe
        | probeFailed probe =>
            obtain rfl := Event.probeFailed.inj hprobe
            refine hsame (hobeys _ probe _ rfl ?_)
            rintro ⟨s, process, pty, hget, hst, -, -⟩
            have := hrest s hget
            rw [hst] at this
            exact nomatch this
      · cases message with
        | posted event =>
            obtain rfl : event = .command cmd credentials := hcmd
            exact hnot ⟨hsame, os, cmd, credentials, reply, rfl, hkind⟩
        | probeFailed probe => exact nomatch hcmd
        | forceKill kill credentials' =>
            cases hcmd
            rcases hkind with hkind | ⟨_, hkind⟩ <;> exact nomatch hkind
  | logged hlog =>
      cases hlog with
      | logged hget => exact rest_step hrest (fun action heq => by cases heq; rfl) (act_log hget)
  | posted _ _ | probeSent _ _ | probeEnded _ | timerSent _ _ => exact absurd rfl hsame

/-- A stop that was answered with `Ok` leaves the service at rest. -/
theorem stop_rests {sys sys' : System} {os : Os} {name : String} {prune : Bool}
    {credentials : Credentials}
    (hstep : SysStep sys (.received os (.posted (.command (.stopService name prune) credentials))
      (.response (.ok .done))) sys') : AtRest sys'.machine name := by
  cases hstep with
  | received _ _ hevent _ _ =>
      obtain ⟨⟨result, m₁⟩, hcmd, hreply⟩ := bind_eq_ok.mp hevent
      cases hreply
      obtain ⟨outcome, hstop, hok⟩ := answerDone_ok hcmd
      rcases stopServiceCmd_ok hstop with ⟨-, e, rfl⟩ | ⟨-, hact, -⟩
      · exact nomatch hok
      · obtain ⟨out, entry, ht, rfl⟩ := hact.act_inv
        intro s hget
        rw [get?_write, if_pos rfl] at hget
        exact transition_stops (by cases prune <;> rfl) ht s hget

/-- The steps of a run in which stale failures are ignored and no client revives `name`. -/
def Quiet (name : String) (sys : System) (move : SysMove) (sys' : System) : Prop :=
  Guarded sys move sys' ∧ ¬ Revives name sys move sys'

theorem rest_sysRun {sys sys' : System} {moves : List SysMove} {name : String}
    (h : SysReachable sys) (hrest : AtRest sys.machine name)
    (hrun : Run (Where SysStep (Quiet name)) sys moves sys') :
    AtRest sys'.machine name ∧ NoStart name sys.machine sys'.machine := by
  refine (hrun.invariant (I := fun sys' => SysReachable sys' ∧ AtRest sys'.machine name
    ∧ NoStart name sys.machine sys'.machine) ?_ ⟨h, hrest, .refl name _⟩).2
  rintro sys₁ move sys₂ ⟨hreach, hat, hno⟩ ⟨hstep, hguard, hnot⟩
  obtain ⟨hat', hno'⟩ := rest_sysStep hreach hstep hguard hnot hat
  exact ⟨hreach.snoc hstep, hat', hno.trans hno'⟩

/-- **HEADLINE.** From any reachable state, every stale failure of a run changes
    nothing exactly if each of them is handled where it is ignored.  In such a
    run, once a client's stop has been carried out, the service is at rest and is
    not started before a client restarts or creates it again. -/
theorem stale_failures_ignored {sys : System} (h : SysReachable sys) :
    (∀ moves sys', Run (Where SysStep Guarded) sys moves sys'
        ↔ Run (Where SysStep Obeys) sys moves sys')
      ∧ ∀ os name prune credentials stopped moves last,
        SysStep sys (.received os (.posted (.command (.stopService name prune) credentials))
          (.response (.ok .done))) stopped →
        Run (Where SysStep (Quiet name)) stopped moves last →
        AtRest last.machine name ∧ NoStart name stopped.machine last.machine := by
  refine ⟨fun moves sys' => ⟨fun hrun => ?_, fun hrun => ?_⟩,
    fun os name prune credentials stopped moves last hstop hquiet => ?_⟩
  · refine hrun.map_of (fun hreach hst => ⟨⟨hst.1, ?_⟩, hreach.snoc hst.1⟩) h
    exact (guarded_iff_obeys hreach hst.1).mp hst.2
  · refine hrun.map_of (fun hreach hst => ⟨⟨hst.1, ?_⟩, hreach.snoc hst.1⟩) h
    exact (guarded_iff_obeys hreach hst.1).mpr hst.2
  · exact rest_sysRun (h.snoc hstop) (stop_rests hstop) hquiet

/-! ## Failures that overtake -/

/-- The probe of `web` fails while the request to stop it is on the channel. -/
def stopQueued : List Choice :=
  [.receive (steadyOs 50 9 []), .post createWeb.2, .receive createWeb.1, .post stopWeb.2,
    .failProbe 0]

/-- Here the failure finds `web` Stopping. -/
theorem stale_failures_ignored_web :
    AtRest (systemAfter ((stopQueued ++ [.receive stopWeb.1])
        ++ [.receive (steadyOs 0 2 [])])).machine "web"
      ∧ NoStart "web" (systemAfter (stopQueued ++ [.receive stopWeb.1])).machine
        (systemAfter ((stopQueued ++ [.receive stopWeb.1]) ++ [.receive (steadyOs 0 2 [])])).machine := by
  have hstop := @systemAfter_receive stopQueued stopWeb.1 (.posted stopWeb.2) (.response (.ok .done))
    (by decide +kernel) (by decide +kernel) (by decide +kernel)
  have hfail := @systemAfter_receive (stopQueued ++ [.receive stopWeb.1]) (steadyOs 0 2 [])
    (.probeFailed ⟨"web", some ⟨100, none, 0⟩, 0⟩) .silent
    (by decide +kernel) (by decide +kernel) (by decide +kernel)
  have hkill : killTable (systemAfter (stopQueued ++ [.receive stopWeb.1])).machine "web"
      = some (⟨100, none, 0⟩, ⟨1⟩) := by decide +kernel
  obtain ⟨s, afterStop, pending, hget, hst, -⟩ := killTable_some hkill
  refine (stale_failures_ignored (systemAfter_reachable (by decide +kernel))).2 _ _ _ _ _ _ _ hstop
    (.single ⟨hfail, ?_, ?_⟩)
  · intro os probe reply heq _
    cases heq
    exact Or.inr ⟨by decide +kernel, by decide, s, _, afterStop, some pending, hget, hst⟩
  · rintro ⟨-, os, cmd, credentials, reply, heq, -⟩
    cases heq

/-- `web` exits by itself; its exit, its owner's stop and the failure of its probe
    are queued in this order. -/
def exitThenStop : List Choice :=
  [.receive (steadyOs 50 9 []), .post createWeb.2, .receive createWeb.1, .post (.signal SIGCHLD),
    .post stopWeb.2, .failProbe 0, .receive (exitOf 100).1]

/-- As before, but its owner deletes `web` and another user creates a service of
    this name. -/
def exitThenDelete : List Choice :=
  [.receive (steadyOs 50 9 []), .post createWeb.2, .receive createWeb.1, .post (.signal SIGCHLD),
    .post (.command (.stopService "web" true) ⟨1000, 1000⟩),
    .post (.command (.createService "web" webService) ⟨2000, 2000⟩), .failProbe 0,
    .receive (exitOf 100).1, .receive (steadyOs 0 1 []), .receive (steadyOs 101 2 [])]

/-- A stale failure restarts the stopped service, and terminates the new service
    of another user. -/
theorem stale_failure_restarts :
    ¬ (∀ sys move sys', SysReachable sys → SysStep sys move sys' → Obeys sys move sys')
      ∧ ¬ (∀ sys os name prune credentials stopped moves last, SysReachable sys →
        SysStep sys (.received os (.posted (.command (.stopService name prune) credentials))
          (.response (.ok .done))) stopped →
        Run (Where SysStep (fun sys move sys' => ¬ Revives name sys move sys')) stopped moves last →
        NoStart name stopped.machine last.machine)
      ∧ ∃ sys os probe reply sys', SysReachable sys
        ∧ SysStep sys (.received os (.probeFailed probe) reply) sys' ∧ ¬ Current sys.machine probe
        ∧ (sys.machine.get? probe.name).map (fun s => s.config.credentials) = some ⟨2000, 2000⟩
        ∧ probe.item ≠ some ⟨101, none, 2⟩
        ∧ .kill ⟨101, none, 2⟩ SIGTERM ∈ newEffects sys.machine sys'.machine := by
  have hstop := @systemAfter_receive exitThenStop stopWeb.1 (.posted stopWeb.2) (.response (.ok .done))
    (by decide +kernel) (by decide +kernel) (by decide +kernel)
  have hfail := @systemAfter_receive (exitThenStop ++ [.receive stopWeb.1]) (steadyOs 101 2 [])
    (.probeFailed ⟨"web", some ⟨100, none, 0⟩, 0⟩) .silent
    (by decide +kernel) (by decide +kernel) (by decide +kernel)
  have hstarts : ∃ e ∈ newEffects (systemAfter (exitThenStop ++ [.receive stopWeb.1])).machine
      (systemAfter ((exitThenStop ++ [.receive stopWeb.1]) ++ [.receive (steadyOs 101 2 [])])).machine,
      startedName e = some "web" := by decide +kernel
  have hstale : probeTable (systemAfter (exitThenStop ++ [.receive stopWeb.1])).machine "web" = none := by
    decide +kernel
  refine ⟨fun hall => ?_, fun hall => ?_, ?_⟩
  · have hsame := hall _ _ _ (systemAfter_reachable (by decide +kernel)) hfail _ _ _ rfl
      (fun hcurrent => by rw [current_iff_shown.mp hcurrent] at hstale; exact nomatch hstale)
    obtain ⟨e, hmem, -⟩ := hstarts
    rw [hsame] at hmem
    exact not_mem_newEffects_self _ _ hmem
  · obtain ⟨out, htrace, hout⟩ := hall _ _ _ _ _ _ _ _ (systemAfter_reachable (by decide +kernel)) hstop
      (.single ⟨hfail, fun ⟨_, _, _, _, _, heq, _⟩ => nomatch heq⟩)
    obtain ⟨e, hmem, hstarted⟩ := hstarts
    rw [newEffects, htrace, List.drop_left] at hmem
    exact hout e hmem hstarted
  · have htouch := @systemAfter_receive exitThenDelete (steadyOs 0 3 [])
      (.probeFailed ⟨"web", some ⟨100, none, 0⟩, 0⟩) .silent
      (by decide +kernel) (by decide +kernel) (by decide +kernel)
    have hshow : probeTable (systemAfter exitThenDelete).machine "web"
        = some (some ⟨101, none, 2⟩, 2) := by decide +kernel
    refine ⟨_, _, _, _, _, systemAfter_reachable (by decide +kernel), htouch, fun hcurrent => ?_,
      by decide +kernel, by decide, by decide +kernel⟩
    rw [current_iff_shown.mp hcurrent] at hshow
    exact nomatch hshow

end BeamStaleRuns
