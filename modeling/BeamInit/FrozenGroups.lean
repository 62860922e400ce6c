import BeamInit.Supervision
import BeamInit.Signals
import BeamInit.Termination
import BeamInit.Refusals

/-! # Frozen services — is a frozen service really stopped?

    `freeze_service` stops the process group and sets the status.  From there on
    the status is the manager's and the signals are sent by two parties: the
    manager itself, and the monitor while it executes commands.  An attach
    notification is passed on to the monitor of a Frozen service too, and what the
    monitor does for it ends with SIGCONT. -/

namespace BeamFrozenGroups

open BeamApi BeamOs BeamService BeamManager BeamCommands BeamMainLoop BeamLifecycle BeamOperations
open BeamRefinement BeamConsistency BeamSignals BeamTermination BeamRefusals BeamChannel BeamNetwork
open BeamMonitorLoop BeamMonitorProtocol BeamSupervision Runs

/-! ## Events that should leave it stopped -/

/-- The service `name` is Frozen on `process`. -/
def FrozenOn (m : Machine) (name : String) (process : ServiceProcess) : Prop :=
  ∃ s pty, m.get? name = some s ∧ s.state.status = .frozen process pty

/-- The move is a client's command that is answered with a success. -/
def Accepts (cmd : Command) (move : Move) : Prop :=
  ∃ os credentials response, move = .handled os (.command cmd credentials) (.response (.ok response))

/-- Neither a thaw, nor a request to terminate, nor a signal of a client, nor the
    end of the process. -/
structure Undisturbed (name : String) (process : ServiceProcess) (m : Machine) (move : Move) :
    Prop where
  terminate : accepted name m move = []
  reap : ¬ Reaps process.mainPid move
  thaw : ¬ Accepts (.thawService name) move
  signal : ∀ sig, ¬ Accepts (.sendSignal name sig) move

/-- No client is let attach to the PTY. -/
def Unattached (name : String) (process : ServiceProcess) (move : Move) : Prop :=
  process.monitorTx ≠ none → ¬ Accepts (.notifyPtyAttached name) move

/-- What an event does to the service: it stays Frozen, and the only thing sent to
    its process is the command for a detach. -/
def Undone (name : String) (process : ServiceProcess) (m m' : Machine) : Prop :=
  FrozenOn m' name process
    ∧ ∀ e ∈ newEffects m m', ∀ p ∈ signalled e, p = process → e = .monitor process .background

section Events

variable {m m' : Machine} {name : String} {process : ServiceProcess}

/-- Doing nothing leaves the service Frozen. -/
theorem undone_refl (h : FrozenOn m name process) : Undone name process m m :=
  ⟨h, fun e hmem => absurd hmem (not_mem_newEffects_self m e)⟩

/-- Two events that leave it Frozen do so together. -/
theorem undone_trans {m'' : Machine} (hpre : m.trace <+: m'.trace) (hpre' : m'.trace <+: m''.trace)
    (h : Undone name process m m') (h' : Undone name process m' m'') :
    Undone name process m m'' := by
  refine ⟨h'.1, fun e hmem => ?_⟩
  rw [newEffects_trans hpre hpre'] at hmem
  rcases List.mem_append.mp hmem with hfirst | hsecond
  · exact h.2 e hfirst
  · exact h'.2 e hsecond

/-- The steps of other services, and those that do not act on a Frozen one. -/
def Aside (name : String) (process : ServiceProcess) (label : Label) : Prop :=
  ∀ action, label = .act name action → action = .keep ∨ action = .log ∨ action = .freeze
    ∨ ∃ pid, action = .reap pid ∧ pid ≠ process.mainPid

/-- A step that does not act on a Frozen service leaves it Frozen. -/
theorem undone_lifecycle {label : Label} (hm : Consistent m) (h : FrozenOn m name process)
    (haside : Aside name process label) (hstep : Lifecycle m label m') :
    Undone name process m m' := by
  obtain ⟨s, pty, hget, hst⟩ := h
  have hheld : holder m name = some process :=
    Option.bind_eq_some_iff.mpr ⟨s, hget, by rw [hst]; rfl⟩
  cases hstep with
  | foreign _ =>
      refine ⟨⟨s, pty, hget, hst⟩, fun e hmem p hp => ?_⟩
      rw [newEffects_of_append rfl] at hmem
      rw [List.mem_singleton.mp hmem] at hp
      exact nomatch hp
  | shutdown _ _ =>
      refine ⟨⟨s, pty, hget, hst⟩, fun e hmem => ?_⟩
      rw [newEffects_of_append (show (raiseShutdown m).trace = m.trace ++ [] from
        (List.append_nil _).symm)] at hmem
      exact nomatch hmem
  | @act other action out entry ht =>
      by_cases hname : other = name
      · subst hname
        rw [hget] at ht
        have hquiet : ∀ {s' : Service}, entry = some s' → out = [] →
            s'.state.status = s.state.status → Undone other process m (write m other entry out) := by
          rintro s' rfl rfl hsame
          refine ⟨⟨s', pty, get?_put_self, hsame.trans hst⟩, fun e hmem => ?_⟩
          rw [newEffects_of_append (write_trace _)] at hmem
          exact nomatch hmem
        rcases haside action rfl with rfl | rfl | rfl | ⟨pid, rfl, hpid⟩
        · cases ht with
          | keep hu => exact hquiet rfl rfl hu.status_eq
        · cases ht with
          | log hs => exact hquiet rfl rfl (hs ▸ rfl)
        · cases ht with
          | freeze hrunning _ => exact nomatch hst.symm.trans hrunning
        · obtain ⟨p, hp, hmain⟩ := transition_reap ht
          rw [heldBy_some, hst] at hp
          cases hp
          exact absurd hmain.symm hpid
      · refine ⟨⟨s, pty, by rw [get?_write, if_neg hname]; exact hget, hst⟩, fun e hmem p hp heq => ?_⟩
        rw [newEffects_of_append (write_trace _)] at hmem
        rcases transition_signals ht with hlacks | ⟨-, honly⟩
        · exact nomatch signals_of_lacks none hlacks e hmem p hp
        · -- no two services share a process
          exact absurd (hm.accounts.unique (honly e hmem p hp) hheld (by rw [heq])) hname

/-- So does a run of such steps. -/
theorem undone_labels {labels : List Label} (hm : Consistent m) (h : FrozenOn m name process)
    (hrun : Run Lifecycle m labels m') (hfresh : SpawnsFresh m'.trace)
    (hlabels : ∀ label ∈ labels, Aside name process label) : Undone name process m m' := by
  induction hrun with
  | nil _ => exact undone_refl h
  | cons hstep hrest ih =>
      have hfirst := undone_lifecycle hm h (hlabels _ List.mem_cons_self) hstep
      have hmid := consistent_step (spawnsFresh_before (run_trace hrest) hfresh) hm hstep
      exact undone_trans (lifecycle_trace hstep) (run_trace hrest) hfirst
        (ih hmid hfirst.1 hfresh fun label hmem => hlabels label (List.mem_cons_of_mem _ hmem))

/-! ## The commands -/

/-- A command about another service, or one that does not change a Frozen service. -/
theorem undone_served {cmd : Command} {credentials : Credentials} (hm : Consistent m)
    (h : FrozenOn m name process) (hfresh : SpawnsFresh m'.trace)
    (hserved : Served cmd credentials m m')
    (hother : target cmd = some name → (∃ service, cmd = .createService name service)
      ∨ ∀ action, serves cmd action = true → action = .freeze ∨ action = .keep) :
    Undone name process m m' := by
  rcases hserved with rfl | ⟨other, actions, htarget, hpermit, hrun, hserves⟩
  · exact undone_refl h
  · refine undone_labels hm h hrun hfresh fun label hmem action heq => ?_
    obtain ⟨action', haction, rfl⟩ := List.mem_map.mp hmem
    cases heq
    rcases hother htarget with ⟨service, rfl⟩ | honly
    · obtain ⟨s, pty, hget, -⟩ := h
      exact nomatch hget.symm.trans hpermit
    · rcases honly action (hserves action haction) with rfl | rfl
      · exact Or.inr (Or.inr (Or.inl rfl))
      · exact Or.inl rfl

/-- A notification is passed on to the monitor of the process, if there is one. -/
theorem notified_cases {cmd : MonitorCommand} {os : Os} {credentials : Credentials}
    {result : Except ServiceError Unit} (h : FrozenOn m name process)
    (hnotify : notifyPty cmd os m credentials name = .ok (result, m')) :
    m' = m ∨ process.monitorTx.isSome ∧ m' = m.emit [.monitor process cmd] := by
  obtain ⟨s, pty, hget, hst⟩ := h
  rcases notifyPty_cases hnotify with ⟨_, -, -, hsame⟩ | ⟨t, ht, -, hsame | ⟨p, hp, htx, hsent⟩⟩
  · exact Or.inl hsame
  · exact Or.inl hsame
  · cases hget.symm.trans (getServiceMut_iff.mp ht).2.1
    rw [hst] at hp
    cases hp
    exact Or.inr ⟨htx, hsent⟩

/-- A detach only sends the command for it. -/
theorem undone_detached {os : Os} {credentials : Credentials} {result : Except ServiceError Unit}
    (h : FrozenOn m name process)
    (hnotify : notifyPtyDetached os m credentials name = .ok (result, m')) :
    Undone name process m m' := by
  rcases notified_cases h hnotify with rfl | ⟨-, rfl⟩
  · exact undone_refl h
  · refine ⟨h, fun e hmem p _ _ => ?_⟩
    rw [newEffects_of_append rfl] at hmem
    exact List.mem_singleton.mp hmem

/-- An attach to a service without a PTY does nothing. -/
theorem undone_attached {os : Os} {credentials : Credentials} {result : Except ServiceError Unit}
    (h : FrozenOn m name process) (htx : process.monitorTx = none)
    (hnotify : notifyPtyAttached os m credentials name = .ok (result, m')) :
    Undone name process m m' := by
  rcases notified_cases h hnotify with rfl | ⟨hsome, -⟩
  · exact undone_refl h
  · rw [htx] at hsome
    exact absurd hsome Bool.false_ne_true

/-- A Frozen service is not at rest. -/
theorem not_dead_of_frozen {s : Service} (h : FrozenOn m name process) (hget : m.get? name = some s) :
    isDead s.state.status = false := by
  obtain ⟨t, pty, hget', hst⟩ := h
  cases hget.symm.trans hget'
  rw [hst]
  rfl

/-- **A command** that is not one of those excluded. -/
theorem undone_command {os : Os} {cmd : Command} {credentials : Credentials}
    {answer : Except ServiceError Response} (hm : Consistent m) (h : FrozenOn m name process)
    (hfresh : SpawnsFresh m'.trace)
    (hcmd : handleApiCommand os m cmd credentials = .ok (answer, m'))
    (hquiet : Undisturbed name process m (.handled os (.command cmd credentials) (.response answer)))
    (hunattached : Unattached name process (.handled os (.command cmd credentials) (.response answer))) :
    Undone name process m m' := by
  have hserved := handleApiCommand_ok hcmd
  by_cases htarget : target cmd = some name
  · cases answer with
    | error e =>
        -- a command about a live service that fails changes nothing
        rcases handleApiCommand_fails hcmd with ⟨rfl, -⟩ | ⟨other, s, hother, hfound, -⟩
        · exact undone_refl h
        · cases htarget.symm.trans hother
          rcases hfound with ⟨hget, hdead⟩ | ⟨hnone, -⟩
          · exact absurd hdead (Bool.eq_false_iff.mp (not_dead_of_frozen h hget))
          · obtain ⟨s, pty, hget, -⟩ := h
            cases hget.symm.trans hnone
    | ok response =>
        cases cmd with
        | listServices => cases htarget
        | createService other service =>
            cases htarget
            exact undone_served hm h hfresh hserved fun _ => Or.inl ⟨service, rfl⟩
        | freezeService other =>
            refine undone_served hm h hfresh hserved fun _ => Or.inr fun action haction => ?_
            exact of_decide_eq_true haction
        | showService other | serviceLogs other follow =>
            refine undone_served hm h hfresh hserved fun _ => Or.inr fun action haction => ?_
            cases haction
        | restartService other =>
            cases htarget
            have hnone := hquiet.terminate
            simp [accepted] at hnone
        | stopService other prune =>
            cases htarget
            have hnone := hquiet.terminate
            simp [accepted] at hnone
        | thawService other =>
            cases htarget
            exact absurd ⟨os, credentials, response, rfl⟩ hquiet.thaw
        | sendSignal other sig =>
            cases htarget
            exact absurd ⟨os, credentials, response, rfl⟩ (hquiet.signal sig)
        | notifyPtyAttached other =>
            cases htarget
            obtain ⟨result, hnotify, -⟩ := answerDone_ok hcmd
            by_cases htx : process.monitorTx = none
            · exact undone_attached h htx hnotify
            · exact absurd ⟨os, credentials, response, rfl⟩ (hunattached htx)
        | notifyPtyDetached other =>
            cases htarget
            obtain ⟨result, hnotify, -⟩ := answerDone_ok hcmd
            exact undone_detached h hnotify
        | forceKillService other token =>
            cases htarget
            obtain ⟨⟨_, m₁⟩, hkill, heq⟩ := bind_eq_ok.mp hcmd
            cases heq
            rcases forceKillService_ok hkill with rfl | ⟨s, p, afterStop, kill, hget, hst, -⟩
            · exact undone_refl h
            · obtain ⟨t, pty, hget', hst'⟩ := h
              cases hget.symm.trans hget'
              cases hst.symm.trans hst'
  · exact undone_served hm h hfresh hserved fun heq => absurd heq htarget

/-! ## The other events -/

/-- **Every event** but those excluded leaves the service Frozen, and sends its
    process nothing but the command for a detach. -/
theorem undone_step {move : Move} (hm : Consistent m) (htrace : SpawnsFresh m.trace)
    (h : FrozenOn m name process) (hstep : Step m move m') (hquiet : Undisturbed name process m move)
    (hunattached : Unattached name process move) : Undone name process m m' := by
  cases hstep with
  | @logged other line s hget =>
      have hfresh : SpawnsFresh (m.put other (pushLine s line) []).trace := by
        rw [put_quiet_trace]
        exact htrace
      refine undone_labels hm h (.single (act_log hget)) hfresh fun label hmem action heq => ?_
      cases (List.mem_singleton.mp hmem).symm.trans heq
      exact Or.inr (Or.inl rfl)
  | @handled _ os event reply hevent hfresh =>
      cases event with
      | command cmd credentials =>
          obtain ⟨⟨answer, m₁⟩, hcmd, heq⟩ := bind_eq_ok.mp hevent
          cases heq
          exact undone_command hm h hfresh hcmd hquiet hunattached
      | getPty other credentials =>
          obtain ⟨_, _, heq⟩ := bind_eq_ok.mp hevent
          cases heq
          exact undone_refl h
      | waitService other credentials => cases hevent; exact undone_refl h
      | signal signo =>
          obtain ⟨m₁, hsignal, heq⟩ := bind_eq_ok.mp hevent
          cases heq
          rcases handleSignal_ok hsignal with ⟨rfl, hreap⟩ | ⟨hterm, hbegin⟩ | ⟨-, -, rfl⟩
          · obtain ⟨labels, hrun, hlabels⟩ := reapAll_ok _ hreap
            refine undone_labels hm h hrun hfresh fun label hmem action heq => ?_
            obtain ⟨reap, hreap, hforeign | ⟨other, hact⟩⟩ := hlabels label hmem
            · exact nomatch hforeign.symm.trans heq
            · cases hact.symm.trans heq
              exact Or.inr (Or.inr (Or.inr ⟨_, rfl,
                fun hpid => hquiet.reap ⟨rfl, reap, hreap, hpid⟩⟩))
          · rcases beginShutdown_ok hbegin with ⟨-, rfl⟩ | ⟨hshut, -⟩
            · exact undone_refl h
            · -- the shutdown stops every service
              have hnone : (if (signo = SIGTERM ∨ signo = SIGINT) ∧ m.mgr.shutdown = false then
                [AfterStop.stop] else []) = [] := hquiet.terminate
              rw [if_pos ⟨hterm, hshut⟩] at hnone
              exact nomatch hnone
          · exact undone_refl h
      | probeFailed other =>
          obtain ⟨m₂, hprobe, heq⟩ := bind_eq_ok.mp hevent
          cases heq
          obtain ⟨result, m₁, hstop, hlog⟩ := handleProbeFailed_ok hprobe
          have hrefused : other = name → m₁ = m := by
            rintro rfl
            rcases stopServiceCmd_ok hstop with ⟨rfl, -⟩ | ⟨hmay, -, hfails⟩
            · rfl
            · -- an accepted restart is a request to terminate
              cases hresult : result with
              | error e =>
                  obtain ⟨s, hget, hdead⟩ := hfails ⟨e, hresult⟩
                  exact absurd hdead (Bool.eq_false_iff.mp (not_dead_of_frozen h hget))
              | ok u =>
                  have hnone : (if other = other ∧ restartAccepted os m other = true then
                    [AfterStop.restart .automatic] else []) = [] := hquiet.terminate
                  rw [if_pos ⟨rfl, (restartAccepted_iff hstop).mpr hresult⟩] at hnone
                  exact nomatch hnone
          have hfirst : ∃ labels, Run Lifecycle m labels m₁
              ∧ ∀ label ∈ labels, Aside name process label := by
            rcases stopServiceCmd_ok hstop with ⟨rfl, -⟩ | ⟨-, hstep, -⟩
            · exact ⟨[], .nil _, fun _ hmem => nomatch hmem⟩
            · by_cases hname : other = name
              · exact ⟨[], hrefused hname ▸ .nil _, fun _ hmem => nomatch hmem⟩
              · refine ⟨_, .single hstep, fun label hmem action heq => ?_⟩
                cases (List.mem_singleton.mp hmem).symm.trans heq
                exact absurd rfl hname
          obtain ⟨labels, hrun, hlabels⟩ := hfirst
          rcases hlog with ⟨rfl, -⟩ | ⟨s, line, e, -, hget, rfl⟩
          · exact undone_labels hm h hrun hfresh hlabels
          · refine undone_labels hm h (hrun.snoc (act_log hget)) hfresh fun label hmem => ?_
            rcases List.mem_append.mp hmem with hmem | hmem
            · exact hlabels label hmem
            · intro action heq
              cases (List.mem_singleton.mp hmem).symm.trans heq
              exact Or.inr (Or.inl rfl)

end Events

/-! ## The monitor meanwhile -/

/-- Nothing the monitor has been told resumes the group. -/
def Calm (w : Session) : Prop :=
  ¬ w.Over → (∀ byte ∈ w.commands, ∀ cmd, MonitorCommand.de byte = .ok cmd →
      .killpg SIGCONT ∉ handle cmd)
    ∧ ∀ cmd calls revents, w.phase = .executing cmd calls revents → .killpg SIGCONT ∉ calls

/-- Between two commands the monitor has been told nothing. -/
theorem calm_of_idle {w : Session} (h : InStep w) (hcaller : w.caller = none) : Calm w := by
  intro hrun
  obtain ⟨hidle, hbegun, queued, hsent, -, hbytes⟩ := h.running hrun
  have hlen := congrArg List.length hsent
  have hacks := h.acks
  rw [hbegun, hidle hcaller, List.length_append, List.length_append] at hlen
  have hnone : w.commands = [] := by
    have hqueued : queued = [] := List.length_eq_zero_iff.mp (by omega)
    rw [hqueued] at hbytes
    exact List.map_eq_nil_iff.mp hbytes.symm
  refine ⟨fun byte hmem => ?_, fun cmd calls revents hphase => ?_⟩
  · rw [hnone] at hmem
    exact nomatch hmem
  · exact absurd hcaller (h.caller_of_executing hphase)

/-- The step sends no command that resumes the group. -/
def SendsCalm (move : SessionMove) : Prop := ∀ cmd, move = .wrote cmd → .killpg SIGCONT ∉ handle cmd

/-- The calls the monitor has made since, and none of them resumes the group. -/
def StaysCalm (w w' : Session) : Prop :=
  ∃ calls, w'.calls = w.calls ++ calls ∧ .killpg SIGCONT ∉ calls

theorem StaysCalm.refl (w : Session) : StaysCalm w w :=
  ⟨[], (List.append_nil _).symm, List.not_mem_nil⟩

/-- Calls in two stretches, none of which resumes the group, are such calls together. -/
theorem StaysCalm.trans {w w' w'' : Session} (h : StaysCalm w w') (h' : StaysCalm w' w'') :
    StaysCalm w w'' := by
  obtain ⟨calls, hcalls, hnot⟩ := h
  obtain ⟨calls', hcalls', hnot'⟩ := h'
  refine ⟨calls ++ calls', by rw [hcalls', hcalls, List.append_assoc], fun hmem => ?_⟩
  rcases List.mem_append.mp hmem with hfirst | hsecond
  · exact hnot hfirst
  · exact hnot' hsecond

/-- **The step lemma of the monitor**: while it is told nothing that resumes the group, it
    does not. -/
theorem calm_step {w w' : Session} {move : SessionMove} (h : Calm w)
    (hstep : SessionStep w move w') (hsends : SendsCalm move) : Calm w' ∧ StaysCalm w w' := by
  -- a phase in which no command is executed
  have hphase : ∀ {w' : Session} {phase : Phase}, w.phase = phase → (∀ exit, phase ≠ .exited exit) →
      phase ≠ .aborted → w'.commands = w.commands →
      (∀ cmd calls revents, w'.phase ≠ .executing cmd calls revents) → Calm w' := by
    intro w' phase hp hexited haborted hcommands hidle _
    rw [hcommands]
    exact ⟨(h (not_over_of_phase hp hexited haborted)).1,
      fun cmd calls revents hexec => absurd hexec (hidle cmd calls revents)⟩
  cases hstep with
  | @wrote cmd byte _ _ hrun hsend hbyte =>
      refine ⟨fun _ => ⟨fun b hmem cmd' hde => ?_, (h hrun).2⟩, .refl _⟩
      rcases List.mem_append.mp hmem with hold | hnew
      · exact (h hrun).1 b hold cmd' hde
      · rw [List.mem_singleton.mp hnew, de_ser hsend hbyte] at hde
        cases hde
        exact hsends cmd rfl
  | brokenPipe _ _ _ _ | failed _ _ _ | returned _ _ | endOfFile _ _ _ | dropped _
  | childExited _ _ | regrouped _ => exact ⟨h, .refl _⟩
  | @read revents byte rest cmd hp _ hcommands hde =>
      have hcalm := (h (not_over_of_phase hp (fun _ => Phase.noConfusion) Phase.noConfusion)).1
      rw [hcommands] at hcalm
      refine ⟨fun _ => ⟨fun b hmem => hcalm b (List.mem_cons_of_mem _ hmem), ?_⟩, .refl _⟩
      intro cmd' calls revents' hexec
      cases hexec
      exact hcalm byte List.mem_cons_self cmd hde
  | undecodable hp _ _ _ => exact ⟨fun hrun => absurd (Or.inr rfl) hrun, .refl _⟩
  | @called cmd call calls revents hp _ =>
      obtain ⟨hcommands, hcalls⟩ :=
        h (not_over_of_phase hp (fun _ => Phase.noConfusion) Phase.noConfusion)
      have hnot := hcalls cmd (call :: calls) revents hp
      refine ⟨fun _ => ⟨hcommands, fun cmd' calls' revents' hexec => ?_⟩, [call], rfl, fun hmem => ?_⟩
      · cases hexec
        exact fun hmem => hnot (List.mem_cons_of_mem _ hmem)
      · exact hnot (List.mem_singleton.mp hmem ▸ List.mem_cons_self)
  | callFailed _ _ | ackFailed _ _ | noChild _ _ _ | killed _ =>
      exact ⟨fun hrun => absurd (Or.inl ⟨_, rfl⟩) hrun, .refl _⟩
  | polled hp _ | noCommand hp _ | acked hp _ | signalled hp _ | noSignal hp _ | nobody hp _ _ =>
      exact ⟨hphase hp (fun _ => Phase.noConfusion) Phase.noConfusion rfl
        (fun _ _ _ => Phase.noConfusion), .refl _⟩
  | @hungUp revents hp =>
      refine ⟨hphase hp (fun _ => Phase.noConfusion) Phase.noConfusion rfl
        (fun _ _ _ => Phase.noConfusion), ?_⟩
      by_cases hkill : revents.hangup = true ∧ w.succeeds (.killpg SIGKILL) = true
      · exact ⟨[.killpg SIGKILL], if_pos hkill, by decide⟩
      · exact ⟨[], (if_neg hkill).trans (List.append_nil _).symm, List.not_mem_nil⟩
  | @waited pid status hp _ =>
      refine ⟨hphase hp (fun _ => Phase.noConfusion) Phase.noConfusion rfl ?_, .refl _⟩
      intro cmd calls revents
      dsimp only
      split
      · exact Phase.noConfusion
      · exact Phase.noConfusion

/-- The same for a run of the session. -/
theorem calm_run {w w' : Session} {moves : List SessionMove} (h : Calm w)
    (hrun : Run SessionStep w moves w') (hsends : ∀ move ∈ moves, SendsCalm move) :
    StaysCalm w w' := by
  induction hrun with
  | nil w => exact .refl w
  | cons hstep _ ih =>
      obtain ⟨hfirst, hrest⟩ := List.forall_mem_cons.mp hsends
      obtain ⟨hcalm, hstays⟩ := calm_step h hstep hfirst
      exact hstays.trans (ih hcalm hrest)

/-- The command written is the one whose `send` then returns. -/
theorem returned_of_wrote {w w' : Session} {moves : List SessionMove}
    (hrun : Run SessionStep w moves w') (hend : w'.caller = none) {cmd : MonitorCommand} :
    (w.caller = some cmd → cmd ∈ moves.filterMap sendReturned)
      ∧ (.wrote cmd ∈ moves → cmd ∈ moves.filterMap sendReturned) := by
  induction hrun with
  | nil w => exact ⟨fun hcaller => (nomatch hcaller.symm.trans hend), fun hmem => nomatch hmem⟩
  | @cons w w₁ w' move moves hstep _ ih =>
      obtain ⟨hwaiting, hwrote⟩ := ih hend
      have hlater : cmd ∈ moves.filterMap sendReturned →
          cmd ∈ (move :: moves).filterMap sendReturned := by
        intro hmem
        obtain ⟨move', hmove, hreturned⟩ := List.mem_filterMap.mp hmem
        exact List.mem_filterMap.mpr ⟨move', List.mem_cons_of_mem _ hmove, hreturned⟩
      refine ⟨fun hcaller => ?_, fun hmem => ?_⟩
      · cases hstep with
        | wrote hidle _ _ _ _ | brokenPipe hidle _ _ _ | failed hidle _ _ | dropped hidle =>
            exact nomatch hcaller.symm.trans hidle
        | returned hw _ | endOfFile hw _ _ =>
            cases hcaller.symm.trans hw
            exact List.mem_cons_self
        | _ => exact hlater (hwaiting hcaller)
      · rcases List.mem_cons.mp hmem with rfl | hrest
        · cases hstep with
          | wrote _ _ _ _ _ => exact hlater (hwaiting rfl)
        · exact hlater (hwrote hrest)

/-! ## Both together -/

/-- A joint step whose event is not one of those excluded, and lets no client attach. -/
def Untouched (name : String) (process : ServiceProcess) (pair : Pair) (label : PairLabel)
    (_ : Pair) : Prop :=
  ∀ move, label.1 = some move →
    Undisturbed name process pair.machine move ∧ Unattached name process move

/-- What holds of a joint state, seen from an earlier one. -/
structure Stopped (name : String) (process : ServiceProcess) (pair pair' : Pair) : Prop where
  undone : Undone name process pair.machine pair'.machine
  calm : StaysCalm pair.session pair'.session

/-- **The joint step**: the service stays Frozen and its group stopped. -/
theorem stopped_step {name : String} {process : ServiceProcess} {pair pair' : Pair}
    {label : PairLabel} (hm : Reachable pair.machine) (hfrozen : FrozenOn pair.machine name process)
    (hin : InStep pair.session) (hcaller : pair.session.caller = none)
    (hstep : PairStep SessionStep process pair label pair')
    (hquiet : Untouched name process pair label pair') : Stopped name process pair pair' := by
  have hcalm := calm_of_idle hin hcaller
  cases hstep with
  | @session m w w' move hmove hside =>
      refine ⟨undone_refl hfrozen, (calm_step hcalm hmove ?_).2⟩
      rintro cmd rfl
      exact nomatch hside
  | @main m m' w w' move moves hmove _ hrun hsends hend _ =>
      obtain ⟨hundisturbed, hunattached⟩ := hquiet move rfl
      have hundone := undone_step (reachable_consistent hm) (reachable_fresh hm) hfrozen hmove
        hundisturbed hunattached
      refine ⟨hundone, calm_run hcalm hrun ?_⟩
      rintro move' hmem cmd rfl
      -- the command is one that the event sends
      have hreturned := (returned_of_wrote hrun hend).2 hmem
      rw [hsends] at hreturned
      obtain ⟨e, he, hcommand⟩ := List.mem_filterMap.mp hreturned
      cases e with
      | monitor p cmd' =>
          obtain ⟨hp, hcmd⟩ := Option.ite_none_right_eq_some.mp hcommand
          cases hcmd
          cases hundone.2 _ he p rfl hp
          decide
      | _ => exact nomatch hcommand

/-- **HEADLINE.** A service that is Frozen stays so, and neither beam-init nor its
    monitor sends its group SIGCONT, along every run without a thaw, a request to
    terminate, a client's signal and the end of its process, as long as no client
    is let attach to its PTY. -/
theorem frozen_stays_stopped {m : Machine} {name : String} {process : ServiceProcess}
    {monitorPid servicePid : Pid} {before : List SessionMove} {w : Session} {labels : List PairLabel}
    {pair : Pair} (hm : Reachable m) (hfrozen : FrozenOn m name process)
    (hsession : Run SessionStep (.start monitorPid servicePid) before w) (hcaller : w.caller = none)
    (hrun : Run (Where (PairStep SessionStep process) (Untouched name process)) ⟨m, w⟩ labels pair) :
    FrozenOn pair.machine name process
      ∧ (∀ sig, .kill process sig ∉ newEffects m pair.machine)
      ∧ ∃ calls, pair.session.calls = w.calls ++ calls ∧ .killpg SIGCONT ∉ calls := by
  have hstart := inStep_run hsession
  have hall : Reachable pair.machine ∧ InStep pair.session ∧ pair.session.caller = none
      ∧ m.trace <+: pair.machine.trace ∧ Stopped name process ⟨m, w⟩ pair := by
    refine hrun.invariant (I := fun pair => Reachable pair.machine ∧ InStep pair.session
      ∧ pair.session.caller = none ∧ m.trace <+: pair.machine.trace ∧ Stopped name process ⟨m, w⟩ pair)
      ?_ ⟨hm, hstart, hcaller, List.prefix_refl _, undone_refl hfrozen, .refl w⟩
    rintro p label p' ⟨hreach, hin, hidle, hpre, hundone, hcalm⟩ ⟨hstep, hquiet⟩
    have hnext := stopped_step hreach hundone.1 hin hidle hstep hquiet
    have hone : Run (PairStep SessionStep process) p [label] p' := .single hstep
    obtain ⟨moves, hmachine⟩ := machine_run hone
    have hgrows := steps_trace hmachine
    exact ⟨reachable_run hreach hmachine, (session_run hone).invariant inStep_step hin,
      caller_step hstep hidle, hpre.trans hgrows, undone_trans hpre hgrows hundone hnext.undone,
      hcalm.trans hnext.calm⟩
  obtain ⟨-, -, -, -, hundone, hcalm⟩ := hall
  refine ⟨hundone.1, fun sig hmem => ?_, hcalm⟩
  exact nomatch hundone.2 _ hmem process rfl rfl

/-! ## A service with a PTY -/

def ttyService : CreateService := { webService with pty := true, liveness := none }

/-- The user 1000 creates `tty`, whose monitor is process 100, and freezes it. -/
def freezeTty : List (Os × Event) :=
  [(steadyOs 100 0 [], .command (.createService "tty" ttyService) ⟨1000, 1000⟩),
    (steadyOs 0 1 [], .command (.freezeService "tty") ⟨1000, 1000⟩)]

/-- A notification of the same user. -/
def notifyTty (cmd : Command) : Os × Event := (steadyOs 0 1 [], .command cmd ⟨1000, 1000⟩)

def ttyProcess : ServiceProcess := ⟨100, some ⟨100⟩, 0⟩

theorem startTty_ready : Ready (.start 100 101) := ready_start (by decide) (by decide)

/-- The monitor, whose service is process 101, has sent it the SIGSTOP. -/
def stoppedTty : Session := afterCommand (.start 100 101) (.signal SIGSTOP)

/-- The session after the freeze of a service with a PTY. -/
theorem stoppedTty_run : ∃ moves, Run SessionStep (.start 100 101) moves stoppedTty := by
  obtain ⟨moves, hrun, -⟩ := command_runs startTty_ready
    (show Sendable (.signal SIGSTOP) from ⟨by decide, by decide⟩)
  exact ⟨moves, hrun⟩

theorem freezeTty_reachable : Reachable (machineAfter freezeTty) :=
  machineAfter_reachable (by decide +kernel) (by decide +kernel)

/-- The freeze leaves the service Frozen on its process. -/
theorem freezeTty_frozen : FrozenOn (machineAfter freezeTty) "tty" ttyProcess := by
  have hstatus : ((machineAfter freezeTty).get? "tty").map (·.state.status)
      = some (.frozen ttyProcess (some ⟨"/dev/pts/0"⟩)) := by decide +kernel
  obtain ⟨s, hget, hst⟩ := Option.map_eq_some_iff.mp hstatus
  exact ⟨s, _, hget, hst⟩

/-- The notification `note` of the owner, and the command `cmd` it makes the monitor execute. -/
theorem notify_pair {note : Command} {cmd : MonitorCommand} (hsend : Sendable cmd)
    (hevent : handleEvent (notifyTty note).1 (machineAfter freezeTty) (notifyTty note).2
      = .ok (.response (.ok .done), machineAfter (freezeTty ++ [notifyTty note])))
    (hfresh : SpawnsFresh (machineAfter (freezeTty ++ [notifyTty note])).trace)
    (hnew : newEffects (machineAfter freezeTty) (machineAfter (freezeTty ++ [notifyTty note]))
      = [.monitor ttyProcess cmd]) :
    ∃ moves, PairStep SessionStep ttyProcess ⟨machineAfter freezeTty, stoppedTty⟩
      (some (.handled (notifyTty note).1 (notifyTty note).2 (.response (.ok .done))), moves)
      ⟨machineAfter (freezeTty ++ [notifyTty note]), afterCommand stoppedTty cmd⟩ := by
  obtain ⟨moves, hrun, hsends⟩ := command_runs (startTty_ready.afterCommand (.signal SIGSTOP)) hsend
  refine ⟨moves, .main (.handled hevent hfresh) rfl hrun ?_ rfl ?_⟩
  · have hown : commandTo ttyProcess (.monitor ttyProcess cmd) = some cmd := by
      simp [commandTo]
    rw [hsends, hnew, List.filterMap_cons_some hown]
    rfl
  · rintro ⟨status, hmem⟩
    rw [hnew] at hmem
    exact nomatch List.mem_singleton.mp hmem

/-- A notification about the terminal is none of the events that end a freeze. -/
theorem undisturbed_notify {note : Command} (hnote : note = .notifyPtyAttached "tty"
    ∨ note = .notifyPtyDetached "tty") :
    Undisturbed "tty" ttyProcess (machineAfter freezeTty)
      (.handled (notifyTty note).1 (notifyTty note).2 (.response (.ok .done))) := by
  rcases hnote with rfl | rfl
  · exact ⟨rfl, fun h => h, fun ⟨_, _, _, h⟩ => (nomatch h), fun _ ⟨_, _, _, h⟩ => nomatch h⟩
  · exact ⟨rfl, fun h => h, fun ⟨_, _, _, h⟩ => (nomatch h), fun _ ⟨_, _, _, h⟩ => nomatch h⟩

/-- A client that detaches leaves the service stopped. -/
theorem frozen_stays_stopped_detached :
    FrozenOn (machineAfter (freezeTty ++ [notifyTty (.notifyPtyDetached "tty")])) "tty" ttyProcess := by
  obtain ⟨before, hbefore⟩ := stoppedTty_run
  obtain ⟨moves, hstep⟩ := @notify_pair (.notifyPtyDetached "tty") .background trivial
    (by decide +kernel) (by decide +kernel) (by decide +kernel)
  refine (frozen_stays_stopped freezeTty_reachable freezeTty_frozen hbefore rfl
    (.single ⟨hstep, fun move heq => ?_⟩)).1
  cases heq
  exact ⟨undisturbed_notify (Or.inr rfl), fun _ ⟨_, _, _, h⟩ => nomatch h⟩

/-- **A client that attaches**: the monitor sends SIGCONT to the group of a service
    that is still shown as Frozen. -/
theorem attach_resumes_frozen :
    ∃ moves m w, Reachable (machineAfter freezeTty)
      ∧ FrozenOn (machineAfter freezeTty) "tty" ttyProcess
      ∧ Undisturbed "tty" ttyProcess (machineAfter freezeTty)
        (.handled (notifyTty (.notifyPtyAttached "tty")).1 (notifyTty (.notifyPtyAttached "tty")).2
          (.response (.ok .done)))
      ∧ PairStep SessionStep ttyProcess ⟨machineAfter freezeTty, stoppedTty⟩
        (some (.handled (notifyTty (.notifyPtyAttached "tty")).1
          (notifyTty (.notifyPtyAttached "tty")).2 (.response (.ok .done))), moves) ⟨m, w⟩
      ∧ FrozenOn m "tty" ttyProcess
      ∧ w.calls = stoppedTty.calls ++ [.tcsetpgrp .service, .killpg SIGCONT] := by
  obtain ⟨moves, hstep⟩ := @notify_pair (.notifyPtyAttached "tty") .foreground trivial
    (by decide +kernel) (by decide +kernel) (by decide +kernel)
  refine ⟨moves, _, _, freezeTty_reachable, freezeTty_frozen, undisturbed_notify (Or.inl rfl), hstep,
    ?_, rfl⟩
  have hstatus : ((machineAfter (freezeTty ++ [notifyTty (.notifyPtyAttached "tty")])).get? "tty").map
      (·.state.status) = some (.frozen ttyProcess (some ⟨"/dev/pts/0"⟩)) := by decide +kernel
  obtain ⟨s, hget, hst⟩ := Option.map_eq_some_iff.mp hstatus
  exact ⟨s, _, hget, hst⟩

end BeamFrozenGroups
