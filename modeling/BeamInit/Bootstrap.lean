import BeamInit.Shutdown
import BeamInit.Network
import BeamInit.ProcessEnd

/-! # The bootstrap service — does beam-init outlive it, does it end alike?

    The first command on the channel creates the service that the container is
    there for.  Once it runs, nothing but the shutdown and its own exit ends it,
    and the loop exits with it.  The loop looks for a bootstrap service that is
    Exited or Stopped, so it goes on after a first start that failed; and it can
    raise a signal that does not end it, such as the SIGTERM that it blocks. -/

namespace BeamBootstrap

open BeamApi BeamOs BeamLogs BeamService BeamSpawnArgs BeamManager BeamCommands BeamMainLoop
open BeamLifecycle BeamOperations BeamRefinement BeamConsistency BeamShutdown BeamChannel BeamNetwork
open BeamProcessEnd Runs

/-! ## The bootstrap service and the loop -/

def RunsBootstrap (m : Machine) (process : ServiceProcess) : Prop :=
  ∃ s pty, m.get? bootstrapName = some s ∧ s.state.status = .running process pty

/-- The loop ends with this iteration, or the bootstrap service is Running on an
    unreaped process. -/
def Tended (m : Machine) : Prop :=
  afterEvent m ≠ .next ∨ ∃ process, RunsBootstrap m process ∧ process ∈ unreaped m.trace

def reapedStatus (pid : Pid) : Effect → Option StdExitStatus
  | .reaped pid' status => if pid' = pid then some status else none
  | _ => none

/-- What `waitpid` returned first for this pid. -/
def firstReap (pid : Pid) (out : List Effect) : Option StdExitStatus :=
  out.findSome? (reapedStatus pid)

/-- A step that reaps the bootstrap process ends beam-init as that process ended. -/
def Follows (ctx : ProcessContext) (m m' : Machine) : Prop :=
  ∀ process, RunsBootstrap m process →
    ∀ status ∈ firstReap process.mainPid (newEffects m m'),
      ∃ e ∈ ending status, processEnd ctx (afterEvent m') = some e

/-- If `waitpid` returns the bootstrap process with a signal, that signal is
    passed on. -/
def PassesOn (ctx : ProcessContext) (m m' : Machine) : Prop :=
  ∀ process, RunsBootstrap m process →
    ∀ status ∈ firstReap process.mainPid (newEffects m m'),
      ∀ signal ∈ status.signal, PassedOn ctx signal

/-- The configuration that the queued command asks for. -/
def bootstrapConfig (os : Os) (cmd : String) (args : List String) (period : Nat) : ServiceConfig where
  cmd := cmd
  args := args
  env := os.varsOs
  liveness := none
  pty := false
  credentials := .root
  labels := ∅
  gracefulTerminationPeriod := period

/-- The environment of beam-init is a valid one, and the first spawn returns a process. -/
def Starts (os : Os) (config : ServiceConfig) : Prop :=
  config.validate = .ok () ∧ ∃ process, spawnService os.start config false = .ok process

/-- How the loop ends for a bootstrap service that has exited. -/
theorem afterEvent_exited {m : Machine} {s : Service} {status : StdExitStatus}
    (hshut : m.mgr.shutdown = false) (hget : m.get? bootstrapName = some s)
    (hst : s.state.status = .exited status) :
    (∀ code, status.code = some code → afterEvent m = .exit code)
      ∧ (status.code = none → ∀ signal, status.signal = some signal →
          afterEvent m = .exitWithSignal signal) := by
  have hroot : getService m .root bootstrapName = .ok s :=
    getService_iff.mpr ⟨hget, Service.checkCredentials_iff.mpr (Or.inl rfl)⟩
  rw [afterEvent, shutdownComplete, shutdownInitiated]
  rw [hshut, Bool.false_and, if_neg Bool.false_ne_true, if_neg Bool.false_ne_true, hroot]
  dsimp only
  rw [hst]
  dsimp only
  constructor
  · intro code hcode
    rw [hcode]
  · intro hcode signal hsignal
    rw [hcode, hsignal]

/-- An exit status that can be published has a code or a signal. -/
theorem code_or_signal {status : StdExitStatus} {api : ApiExitStatus}
    (h : status.toApi = .ok api) :
    (∃ code, status.code = some code)
      ∨ status.code = none ∧ ∃ signal, status.signal = some signal := by
  unfold StdExitStatus.toApi at h
  cases hcode : status.code with
  | some code => exact Or.inl ⟨code, rfl⟩
  | none =>
      refine Or.inr ⟨rfl, ?_⟩
      cases hsignal : status.signal with
      | some signal => exact ⟨signal, rfl⟩
      | none =>
          rw [hcode, hsignal] at h
          cases h

/-- A status with an exit code has no signal. -/
theorem signal_eq_none {status : StdExitStatus} {code : Int} (h : status.code = some code) :
    status.signal = none := by
  unfold StdExitStatus.code at h
  split at h
  · rename_i hzero
    exact if_neg fun hboth => hboth.1 hzero
  · cases h

/-- **Beam-init ends like its bootstrap service** exactly if a signal that ended
    the service is passed on. -/
theorem ends_alike_iff {ctx : ProcessContext} {m : Machine} {s : Service} {status : StdExitStatus}
    {api : ApiExitStatus} (hshut : m.mgr.shutdown = false)
    (hget : m.get? bootstrapName = some s) (hst : s.state.status = .exited status)
    (hapi : status.toApi = .ok api) :
    (∃ e ∈ ending status, processEnd ctx (afterEvent m) = some e)
      ↔ ∀ signal ∈ status.signal, PassedOn ctx signal := by
  obtain ⟨hexit, hraise⟩ := afterEvent_exited hshut hget hst
  rcases code_or_signal hapi with ⟨code, hcode⟩ | ⟨hcode, signal, hsignal⟩
  · refine iff_of_true ⟨.code code, ?_, ?_⟩ fun signal hmem => ?_
    · rw [ending, hcode]
      rfl
    · rw [hexit code hcode, processEnd, code_emod hcode]
    · exact nomatch (signal_eq_none hcode).symm.trans hmem
  · have hending : ending status = some (.signal signal) := by
      rw [ending, hcode, hsignal]
      rfl
    rw [hraise hcode signal hsignal, hending, hsignal, processEnd]
    constructor
    · rintro ⟨e, he, hend⟩ signal' hmem
      cases he
      cases hmem
      exact exitWithSignal_eq_iff.mp (Option.some.inj hend)
    · intro hpassed
      exact ⟨_, rfl, congrArg some (exitWithSignal_eq_iff.mpr (hpassed signal rfl))⟩

/-- The loop does not go on after the exit of its bootstrap service. -/
theorem afterEvent_ne_next {m : Machine} {s : Service} {status : StdExitStatus}
    {api : ApiExitStatus} (hshut : m.mgr.shutdown = false)
    (hget : m.get? bootstrapName = some s) (hst : s.state.status = .exited status)
    (hapi : status.toApi = .ok api) : afterEvent m ≠ .next := by
  obtain ⟨hexit, hraise⟩ := afterEvent_exited hshut hget hst
  rcases code_or_signal hapi with ⟨code, hcode⟩ | ⟨hcode, signal, hsignal⟩
  · rw [hexit code hcode]
    exact LoopExit.noConfusion
  · rw [hraise hcode signal hsignal]
    exact LoopExit.noConfusion

/-! ## The first reap -/

theorem firstReap_append (pid : Pid) (out out' : List Effect) :
    firstReap pid (out ++ out') = (firstReap pid out).or (firstReap pid out') :=
  List.findSome?_append

theorem firstReap_quiet {pid : Pid} {out : List Effect} (h : Lacks touchesChildren out) :
    firstReap pid out = none := by
  refine List.findSome?_eq_none_iff.mpr fun e hmem => ?_
  have hquiet := h e hmem
  cases e with
  | reaped _ _ => exact nomatch hquiet
  | _ => rfl

theorem firstReap_gains {pid : Pid} {name : String} {out : List Effect}
    {held : Option ServiceProcess} (h : Gains name out held) : firstReap pid out = none := by
  cases h with
  | nothing h => exact firstReap_quiet h
  | spawned hpre hpost =>
      rw [firstReap_append, firstReap_quiet hpre, firstReap, List.findSome?_cons]
      exact firstReap_quiet hpost

/-- A handover reaps no process but the one that was held. -/
theorem firstReap_handover {pid : Pid} {name : String} {out : List Effect}
    {held held' : Option ServiceProcess} (h : Handover name out held held')
    (hother : ∀ process ∈ held, process.mainPid ≠ pid) : firstReap pid out = none := by
  cases h with
  | same hquiet => exact firstReap_quiet hquiet
  | gained hgains => exact firstReap_gains hgains
  | reaped hgains =>
      rw [firstReap, List.findSome?_cons, reapedStatus, if_neg (hother _ rfl)]
      exact firstReap_gains hgains

/-! ## What can happen to it -/

/-- Since `m₀` the service has been Running on `process`, or it has exited with
    what `waitpid` returned for it. -/
def Hosted (m₀ : Machine) (process : ServiceProcess) (m : Machine) : Prop :=
  ∃ s, m.get? bootstrapName = some s
    ∧ ((∃ pty, s.state.status = .running process pty)
        ∧ firstReap process.mainPid (newEffects m₀ m) = none
      ∨ ∃ status, s.state.status = .exited status
        ∧ firstReap process.mainPid (newEffects m₀ m) = some status)

theorem hosted_self {m : Machine} {process : ServiceProcess} (h : RunsBootstrap m process) :
    Hosted m process m := by
  obtain ⟨s, pty, hget, hst⟩ := h
  refine ⟨s, hget, Or.inl ⟨⟨pty, hst⟩, ?_⟩⟩
  rw [newEffects, List.drop_length]
  rfl

/-- All that an event may do to the bootstrap service before the shutdown. -/
def Spares (label : Label) : Prop :=
  ∀ action, label = .act bootstrapName action →
    action = .signal ∨ action = .log ∨ ∃ pid, action = .reap pid

theorem hosted_lifecycle {m₀ m m' : Machine} {process : ServiceProcess} {label : Label}
    (hpre : m₀.trace <+: m.trace) (hm : Consistent m) (hlabel : Spares label)
    (h : Hosted m₀ process m) (hstep : Lifecycle m label m') : Hosted m₀ process m' := by
  obtain ⟨s, hget, hstatus⟩ := h
  -- a status that stays: only the reap of the process itself would tell
  have hkept : ∀ {out : List Effect} {s' : Service}, m'.trace = m.trace ++ out →
      m'.get? bootstrapName = some s' → s'.state.status = s.state.status →
      (s.state.status.process? = some process → firstReap process.mainPid out = none) →
      Hosted m₀ process m' := by
    intro out s' htrace hget' hsame hout
    refine ⟨s', hget', ?_⟩
    rw [hsame, newEffects_append hpre htrace, firstReap_append]
    rcases hstatus with ⟨⟨pty, hst⟩, hnone⟩ | ⟨status, hst, hsome⟩
    · refine Or.inl ⟨⟨pty, hst⟩, ?_⟩
      rw [hnone, hout (by rw [hst]; rfl)]
      rfl
    · exact Or.inr ⟨status, hst, by rw [hsome]; rfl⟩
  cases hstep with
  | foreign hnobody =>
      refine hkept rfl hget rfl fun hheld => ?_
      rw [firstReap, List.findSome?_cons, reapedStatus,
        if_neg (Ne.symm (hnobody _ s process hget hheld))]
      rfl
  | shutdown _ _ => exact hkept (List.append_nil _).symm hget rfl fun _ => rfl
  | @act name action out entry ht =>
      have hover := transition_handover ht fun hshut => hm.settled hshut name
      by_cases hname : name = bootstrapName
      · subst hname
        rw [hget] at ht
        have hentry : ∀ s', entry = some s' →
            (write m bootstrapName entry out).get? bootstrapName = some s' := by
          rintro s' rfl
          rw [get?_write, if_pos rfl]
        rcases hlabel action rfl with rfl | rfl | ⟨pid, rfl⟩
        · cases ht with
          | signal _ hout =>
              refine hkept (write_trace _) (hentry _ rfl) rfl fun _ => firstReap_quiet ?_
              rcases hout with ⟨cmd, rfl⟩ | ⟨sig, rfl⟩
              · exact .cons rfl .nil
              · exact quiet_sent _ sig
        · cases ht with
          | log hs => exact hkept (write_trace _) (hentry _ rfl) (hs ▸ rfl) fun _ => rfl
        · rcases hstatus with ⟨⟨pty, hst⟩, hnone⟩ | ⟨status, hst, -⟩
          · cases ht with
            | @exited _ s' _ _ status hlive hu =>
                have hsame := hst.symm.trans (hlive.resolve_right fun hf => nomatch hst.symm.trans hf)
                cases hsame
                refine ⟨s', hentry s' rfl, Or.inr ⟨status, hu.status_eq, ?_⟩⟩
                rw [newEffects_append hpre (write_trace _), firstReap_append, hnone, firstReap,
                  List.findSome?_cons, reapedStatus, if_pos rfl]
                rfl
            | stopped h' _ | pruned h' | restarted _ h' _ | stranded _ h' _ _ =>
                exact nomatch hst.symm.trans h'
          · -- an exited service has no process to reap
            obtain ⟨_, hheld, -⟩ := transition_reap ht
            rw [heldBy_some, hst] at hheld
            exact nomatch hheld
      · refine hkept (write_trace _) (by rw [get?_write, if_neg hname]; exact hget) rfl fun hheld => ?_
        -- two services have no process in common
        refine firstReap_handover hover fun other hother heq => hname ?_
        exact hm.accounts.unique hother (by rw [holder, hget]; exact hheld) heq

theorem hosted_labels {m₀ m m' : Machine} {process : ServiceProcess} {labels : List Label}
    (hpre : m₀.trace <+: m.trace) (hm : Consistent m) (hrun : Run Lifecycle m labels m')
    (hfresh : SpawnsFresh m'.trace) (hlabels : ∀ label ∈ labels, Spares label)
    (h : Hosted m₀ process m) : Hosted m₀ process m' := by
  induction hrun with
  | nil _ => exact h
  | cons hstep hrest ih =>
      have hbefore := spawnsFresh_before (run_trace hrest) hfresh
      exact ih (hpre.trans (lifecycle_trace hstep)) (consistent_step hbefore hm hstep) hfresh
        (fun label hmem => hlabels label (List.mem_cons_of_mem _ hmem))
        (hosted_lifecycle hpre hm (hlabels _ List.mem_cons_self) h hstep)

/-- A request that gets past its checks is not about an existing bootstrap service. -/
theorem served_spares {cmd : Command} {credentials : Credentials} {m m' : Machine} {s : Service}
    (hget : m.get? bootstrapName = some s) (h : Served cmd credentials m m') :
    ∃ labels, Run Lifecycle m labels m' ∧ ∀ label ∈ labels, Spares label := by
  rcases h with rfl | ⟨name, actions, -, hpermit, hrun, hserves⟩
  · exact ⟨[], .nil _, nofun⟩
  · refine ⟨_, hrun, fun label hmem action heq => ?_⟩
    obtain ⟨action', haction, rfl⟩ := List.mem_map.mp hmem
    cases heq
    cases cmd with
    | createService name service => exact nomatch hget.symm.trans hpermit
    | forceKillService name token =>
        exact Or.inl (of_decide_eq_true (hserves action haction))
    | _ => exact absurd rfl hpermit.1

/-- **Before the shutdown**, no event does more to the bootstrap service than
    signal it, log for it or reap it. -/
theorem event_spares {os : Os} {m m' : Machine} {event : Event} {reply : Reply} {s : Service}
    (hget : m.get? bootstrapName = some s) (h : handleEvent os m event = .ok (reply, m'))
    (hshut : m'.mgr.shutdown = false) :
    ∃ labels, Run Lifecycle m labels m' ∧ ∀ label ∈ labels, Spares label := by
  cases event with
  | signal signo =>
      obtain ⟨m₁, hsignal, h⟩ := bind_eq_ok.mp h
      cases h
      rcases handleSignal_ok hsignal with ⟨rfl, hreap⟩ | ⟨hterm, -⟩ | ⟨-, -, rfl⟩
      · obtain ⟨labels, hrun, hlabels⟩ := reapAll_ok _ hreap
        refine ⟨labels, hrun, fun label hmem action heq => ?_⟩
        obtain ⟨reap, -, hforeign | ⟨name, hact⟩⟩ := hlabels label hmem
        · exact nomatch hforeign.symm.trans heq
        · cases hact.symm.trans heq
          exact Or.inr (Or.inr ⟨_, rfl⟩)
      · exact nomatch hshut.symm.trans (handleSignal_terminate hterm hsignal).1
      · exact ⟨[], .nil _, nofun⟩
  | command cmd credentials =>
      obtain ⟨⟨result, m₁⟩, hcmd, h⟩ := bind_eq_ok.mp h
      cases h
      exact served_spares hget (handleApiCommand_ok hcmd)
  | getPty name credentials =>
      obtain ⟨_, _, h⟩ := bind_eq_ok.mp h
      cases h
      exact ⟨[], .nil _, nofun⟩
  | waitService name credentials => cases h; exact ⟨[], .nil _, nofun⟩
  | probeFailed name =>
      obtain ⟨m₂, hprobe, h⟩ := bind_eq_ok.mp h
      cases h
      obtain ⟨result, m₁, hstop, hlog⟩ := handleProbeFailed_ok hprobe
      have hfirst : ∃ labels, Run Lifecycle m labels m₁ ∧ ∀ label ∈ labels, Spares label := by
        rcases stopServiceCmd_ok hstop with ⟨rfl, -⟩ | ⟨hmay, hstep, -⟩
        · exact ⟨[], .nil _, nofun⟩
        · refine ⟨_, .single hstep, fun label hmem action heq => ?_⟩
          cases (List.mem_singleton.mp hmem).symm.trans heq
          exact absurd rfl hmay.1
      rcases hlog with ⟨rfl, -⟩ | ⟨t, line, e, -, hget', rfl⟩
      · exact hfirst
      · obtain ⟨labels, hrun, hlabels⟩ := hfirst
        refine ⟨labels ++ [.act name .log], hrun.snoc (act_log hget'), fun label hmem => ?_⟩
        rcases List.mem_append.mp hmem with hmem | hmem
        · exact hlabels label hmem
        · intro action heq
          cases (List.mem_singleton.mp hmem).symm.trans heq
          exact Or.inr (Or.inl rfl)

theorem step_spares {m m' : Machine} {move : Move} {s : Service}
    (hget : m.get? bootstrapName = some s) (h : Step m move m') (hshut : m'.mgr.shutdown = false) :
    ∃ labels, Run Lifecycle m labels m' ∧ ∀ label ∈ labels, Spares label := by
  cases h with
  | handled hevent _ => exact event_spares hget hevent hshut
  | @logged name line t hget' =>
      refine ⟨_, .single (act_log hget'), fun label hmem action heq => ?_⟩
      cases (List.mem_singleton.mp hmem).symm.trans heq
      exact Or.inr (Or.inl rfl)

/-! ## The first start -/

theorem spawnInto_status {os : StartOutcome} {name : String} {s s' : Service} {pty : Option Pty}
    {result : Except ServiceError Unit} {out : List Effect}
    (h : spawnInto os name s pty = .ok (result, s', out)) :
    (∃ process, spawnService os s.config pty.isSome = .ok process
        ∧ s'.state.status = .running process pty)
      ∨ ∃ err, spawnService os s.config pty.isSome = .error err ∧ s'.state.status = .error err := by
  rw [spawnInto] at h
  cases hspawn : spawnService os s.config pty.isSome with
  | ok process =>
      rw [hspawn] at h
      obtain ⟨s₁, hset, h⟩ := bind_eq_ok.mp h
      obtain ⟨hu, -⟩ := update_of_spawnProbe hset (Copy.refl s) os.probe name
      cases h
      exact Or.inl ⟨process, rfl, hu.status_eq⟩
  | error err =>
      rw [hspawn] at h
      obtain ⟨s₁, hset, h⟩ := bind_eq_ok.mp h
      cases h
      exact Or.inr ⟨err, rfl, (update_of_setStatus hset (Copy.refl s)).status_eq⟩

/-- A service without a PTY is started by one spawn. -/
theorem startEntry_status {os : StartOutcome} {name : String} {reason : StartReason}
    {s s' : Service} {result : Except ServiceError Unit} {out : List Effect}
    (h : startEntry os name reason s = .ok (result, s', out)) (hpty : s.config.pty = false) :
    (∃ process, spawnService os s.config false = .ok process
        ∧ s'.state.status = .running process none)
      ∨ ∃ err, spawnService os s.config false = .error err ∧ s'.state.status = .error err := by
  rw [startEntry] at h
  dsimp only at h
  rw [hpty, if_neg Bool.false_ne_true] at h
  obtain ⟨⟨logs, old, new⟩, -, h⟩ := bind_eq_ok.mp h
  obtain ⟨⟨result, s₁, out₁⟩, hspawn, h⟩ := bind_eq_ok.mp h
  cases h
  exact spawnInto_status hspawn

/-- Without a bootstrap service, or with one in Error, the loop goes on. -/
theorem not_tended {m : Machine} (hshut : m.mgr.shutdown = false)
    (h : ∀ s, m.get? bootstrapName = some s → ∃ err, s.state.status = .error err) : ¬ Tended m := by
  rintro (hexit | ⟨process, ⟨s, pty, hget, hst⟩, -⟩)
  · refine hexit ?_
    unfold afterEvent shutdownComplete shutdownInitiated
    rw [hshut, Bool.false_and, if_neg Bool.false_ne_true, if_neg Bool.false_ne_true]
    cases hroot : getService m .root bootstrapName with
    | error e => rfl
    | ok s =>
        obtain ⟨err, hst⟩ := h s (getService_iff.mp hroot).1
        dsimp only
        rw [hst]
  · obtain ⟨err, herr⟩ := h s hget
    exact nomatch hst.symm.trans herr

/-- What `create_service` makes of the queued command. -/
theorem createService_new {files : List String} {lines : NonZeroUsize} {config : ServiceConfig}
    {result : Except ServiceError Unit} {m : Machine}
    (h : createService (newMachine files lines) bootstrapName config = (result, m)) :
    (∃ e, config.validate = .error e ∧ result = .error e ∧ m = newMachine files lines)
      ∨ config.validate = .ok () ∧ result = .ok ()
        ∧ ∃ s, Created s ∧ s.config = config ∧ m = (newMachine files lines).put bootstrapName s [] := by
  have hdown : ¬ (newMachine files lines).mgr.shutdown = true := Bool.false_ne_true
  rw [createService] at h
  rw [if_neg hdown, if_neg (by decide), if_neg (by decide)] at h
  cases hvalid : config.validate with
  | error e =>
      rw [hvalid] at h
      cases h
      exact Or.inl ⟨e, rfl, rfl, rfl⟩
  | ok u =>
      rw [hvalid] at h
      dsimp only at h
      rw [show (newMachine files lines).get? bootstrapName = none from rfl] at h
      cases h
      exact Or.inr ⟨rfl, rfl, _, ⟨rfl, rfl, rfl, rfl⟩, rfl, rfl⟩

/-- **The queued command** leaves a running bootstrap service if beam-init's
    environment is valid and the spawn succeeds, and else one that the loop does
    not look for. -/
theorem bootstrap_handled {os : Os} {files : List String} {lines : NonZeroUsize} {cmd : String}
    {args : List String} {period : Nat} {reply : Reply} {m' : Machine}
    (h : handleEvent os (newMachine files lines) (bootstrapCommand cmd args period)
      = .ok (reply, m')) :
    m'.mgr.shutdown = false
      ∧ ((Starts os (bootstrapConfig os cmd args period) ∧ ∃ process, RunsBootstrap m' process)
        ∨ ¬ Starts os (bootstrapConfig os cmd args period) ∧ ¬ Tended m') := by
  obtain ⟨⟨result, m₁⟩, hcmd, h⟩ := bind_eq_ok.mp h
  cases h
  rw [handleApiCommand, serviceEnvironment] at hcmd
  dsimp only at hcmd
  rw [if_pos rfl] at hcmd
  dsimp only at hcmd
  cases hcreate : createService (newMachine files lines) bootstrapName
      (bootstrapConfig os cmd args period) with
  | mk created m₂ =>
      rw [show requestedConfig _ os.varsOs .root = bootstrapConfig os cmd args period from rfl,
        hcreate] at hcmd
      rcases createService_new hcreate with ⟨e, hvalid, rfl, rfl⟩ | ⟨hvalid, rfl, s, hs, hconfig, rfl⟩
      · cases hcmd
        refine ⟨rfl, Or.inr ⟨fun hstarts => (nomatch hvalid.symm.trans hstarts.1), ?_⟩⟩
        exact not_tended rfl fun s hget => nomatch hget
      · obtain ⟨⟨started, m₃⟩, hstart, hcmd⟩ := bind_eq_ok.mp hcmd
        cases hcmd
        have hcred : s.checkCredentials .root = .ok () :=
          Service.checkCredentials_iff.mpr (Or.inl rfl)
        obtain ⟨s', out, hentry, rfl⟩ := startService_ok hstart rfl get?_put_self hcred
        have hpty : s.config.pty = false := by rw [hconfig]; rfl
        refine ⟨rfl, ?_⟩
        rcases startEntry_status hentry hpty with ⟨process, hspawn, hst⟩ | ⟨err, hspawn, hst⟩
        · exact Or.inl ⟨⟨hvalid, process, hconfig ▸ hspawn⟩, process, s', none, get?_put_self, hst⟩
        · refine Or.inr ⟨?_, not_tended rfl fun t hget => ?_⟩
          · rintro ⟨-, process, hok⟩
            exact nomatch (hconfig ▸ hspawn).symm.trans hok
          · cases get?_put_self.symm.trans hget
            exact ⟨err, hst⟩

/-! ## Every later state -/

def isReceived : SysMove → Prop
  | .received .. => True
  | _ => False

/-- Until it is taken off the channel, the queued command stands first. -/
theorem before_first {files : List String} {lines : NonZeroUsize} {init : Event}
    {moves : List SysMove} {sys : System} (hrun : Run SysStep (.new files lines init) moves sys)
    (hfirst : ∀ move ∈ moves, ¬ isReceived move) :
    sys.machine = newMachine files lines ∧ sys.tasks = ⟨[], []⟩
      ∧ sys.queue.head? = some (.posted init) := by
  refine hrun.invariant_of (I := fun sys => sys.machine = newMachine files lines
    ∧ sys.tasks = ⟨[], []⟩ ∧ sys.queue.head? = some (.posted init))
    (Q := fun move => ¬ isReceived move) ?_ hfirst ⟨rfl, rfl, rfl⟩
  rintro sys move sys' hmove ⟨hmachine, htasks, hhead⟩ hstep
  cases hstep with
  | received _ _ _ _ _ => exact absurd trivial hmove
  | posted _ _ =>
      refine ⟨hmachine, htasks, ?_⟩
      show (sys.queue ++ _).head? = _
      rw [List.head?_append, hhead]
      rfl
  | probeSent hmem _ | probeEnded hmem => rw [htasks] at hmem; exact nomatch hmem
  | timerSent hmem _ => rw [htasks] at hmem; exact nomatch hmem
  | logged hlog =>
      rw [hmachine] at hlog
      cases hlog with
      | logged hget => exact nomatch hget

/-- One step of the main loop, before the shutdown. -/
theorem hosted_step {m₀ m m' : Machine} {process : ServiceProcess} {move : Move}
    (hpre : m₀.trace <+: m.trace) (hm : Reachable m) (h : Hosted m₀ process m)
    (hstep : Step m move m') (hshut : m'.mgr.shutdown = false) : Hosted m₀ process m' := by
  obtain ⟨s, hget, -⟩ := id h
  obtain ⟨labels, hrun, hlabels⟩ := step_spares hget hstep hshut
  exact hosted_labels hpre (reachable_consistent hm) hrun
    (reachable_fresh (reachable_snoc hm hstep)) hlabels h

theorem step_shutdown {m m' : Machine} {move : Move} (hstep : Step m move m')
    (hshut : m'.mgr.shutdown = false) : m.mgr.shutdown = false := by
  by_contra hup
  exact nomatch hshut.symm.trans (flagKept_run (.single hstep) (Bool.eq_true_of_not_eq_false hup)).1

theorem hosted_sysStep {m₀ : Machine} {sys sys' : System} {process : ServiceProcess} {move : SysMove}
    (hpre : m₀.trace <+: sys.machine.trace) (hm : Reachable sys.machine)
    (h : sys.machine.mgr.shutdown = false → Hosted m₀ process sys.machine)
    (hstep : SysStep sys move sys') :
    m₀.trace <+: sys'.machine.trace
      ∧ (sys'.machine.mgr.shutdown = false → Hosted m₀ process sys'.machine) := by
  have hmain : ∀ {move : Move} {m' : Machine}, Step sys.machine move m' → m₀.trace <+: m'.trace
      ∧ (m'.mgr.shutdown = false → Hosted m₀ process m') := by
    intro move m' hmove
    obtain ⟨labels, hrun⟩ := step_ok hmove
    exact ⟨hpre.trans (run_trace hrun),
      fun hshut => hosted_step hpre hm (h (step_shutdown hmove hshut)) hmove hshut⟩
  cases hstep with
  | received _ _ hevent hfresh _ => exact hmain (.handled hevent hfresh)
  | logged hlog => exact hmain hlog
  | posted _ _ | probeSent _ _ | probeEnded _ | timerSent _ _ => exact ⟨hpre, h⟩

/-- The exit status of a service has been published. -/
theorem published_exit {m : Machine} {name : String} {s : Service} {status : StdExitStatus}
    (hm : Reachable m) (hget : m.get? name = some s) (hst : s.state.status = .exited status) :
    ∃ api, status.toApi = .ok api := by
  have hshown := (reachable_consistent hm).shown name s hget
  rw [hst] at hshown
  obtain ⟨api, hapi, -⟩ := bind_eq_ok.mp hshown
  exact ⟨api, hapi⟩

/-- A bootstrap service that was started is tended to. -/
theorem tended_of_hosted {m₀ m : Machine} {process : ServiceProcess} (hm : Reachable m)
    (hshut : m.mgr.shutdown = false) (h : Hosted m₀ process m) : Tended m := by
  obtain ⟨s, hget, ⟨⟨pty, hst⟩, -⟩ | ⟨status, hst, -⟩⟩ := h
  · refine Or.inr ⟨process, ⟨s, pty, hget, hst⟩, ?_⟩
    refine ((reachable_consistent hm).accounts.held process).mpr ⟨bootstrapName, ?_⟩
    exact Option.bind_eq_some_iff.mpr ⟨s, hget, by rw [hst]; rfl⟩
  · obtain ⟨api, hapi⟩ := published_exit hm hget hst
    exact Or.inl (afterEvent_ne_next hshut hget hst hapi)

/-- **A step that reaps the bootstrap process** ends beam-init as that process
    ended exactly if the signal that ended it, if any, is passed on. -/
theorem follows_iff {ctx : ProcessContext} {sys sys' : System} {move : SysMove}
    (hm : Reachable sys.machine) (hm' : Reachable sys'.machine)
    (hstep : SysStep sys move sys') (hshut : sys'.machine.mgr.shutdown = false) :
    Follows ctx sys.machine sys'.machine ↔ PassesOn ctx sys.machine sys'.machine := by
  refine forall_congr' fun process => forall_congr' fun hruns => forall_congr' fun status =>
    forall_congr' fun hreap => ?_
  obtain ⟨-, hhosted⟩ := hosted_sysStep (List.prefix_refl _) hm (fun _ => hosted_self hruns) hstep
  obtain ⟨s, hget, ⟨-, hnone⟩ | ⟨status', hst, hsome⟩⟩ := hhosted hshut
  · exact nomatch hnone.symm.trans hreap
  · obtain rfl := Option.some.inj (hsome.symm.trans hreap)
    obtain ⟨api, hapi⟩ := published_exit hm' hget hst
    exact ends_alike_iff hshut hget hst hapi

/-- What the runs from the first start on keep, until the shutdown. -/
def Outlived (m₀ : Machine) (process : ServiceProcess) (sys : System) : Prop :=
  SysReachable sys ∧ m₀.trace <+: sys.machine.trace
    ∧ (sys.machine.mgr.shutdown = false → Hosted m₀ process sys.machine)

theorem outlived_step {m₀ : Machine} {process : ServiceProcess} {sys sys' : System}
    {move : SysMove} (h : Outlived m₀ process sys) (hstep : SysStep sys move sys') :
    Outlived m₀ process sys' := by
  obtain ⟨hsys, hpre, hhosted⟩ := h
  obtain ⟨hpre', hhosted'⟩ := hosted_sysStep hpre hsys.machine hhosted hstep
  exact ⟨hsys.snoc hstep, hpre', hhosted'⟩

/-- **HEADLINE.** From the iteration that handles the queued command on and until
    the shutdown, beam-init ends or has its bootstrap service Running on an
    unreaped process, and it ends in the iteration that reaps this process as the
    process ended: exactly in the runs where the environment was valid, the first
    spawn succeeded and a signal that ended the process is passed on. -/
theorem bootstrap_is_tended {ctx : ProcessContext} {files : List String} {lines : NonZeroUsize}
    {cmd : String} {args : List String} {period : Nat} {before moves : List SysMove}
    {sys₀ sys₁ sys : System} {os : Os} {message : Message} {reply : Reply}
    (hbefore : Run SysStep (.new files lines (bootstrapCommand cmd args period)) before sys₀)
    (hfirst : ∀ move ∈ before, ¬ isReceived move)
    (hstep : SysStep sys₀ (.received os message reply) sys₁) :
    (Tended sys₁.machine
        ∧ Run (Where SysStep fun s _ s' => s'.machine.mgr.shutdown = false →
            Tended s'.machine ∧ Follows ctx s.machine s'.machine) sys₁ moves sys)
      ↔ Starts os (bootstrapConfig os cmd args period)
        ∧ Run (Where SysStep fun s _ s' => s'.machine.mgr.shutdown = false →
            PassesOn ctx s.machine s'.machine) sys₁ moves sys := by
  have hreach₁ : SysReachable sys₁ := ⟨files, lines, cmd, args, period, _, hbefore.snoc hstep⟩
  obtain ⟨hmachine, -, hhead⟩ := before_first hbefore hfirst
  have hevent : handleEvent os (newMachine files lines) (bootstrapCommand cmd args period)
      = .ok (reply, sys₁.machine) := by
    cases hstep with
    | received hqueue _ hevent _ _ =>
        rw [hqueue] at hhead
        cases hhead
        rw [hmachine] at hevent
        exact hevent
  obtain ⟨hshut, ⟨hstarts, process, hruns⟩ | ⟨hfails, hlingers⟩⟩ := bootstrap_handled hevent
  · have hstart : Outlived sys₁.machine process sys₁ :=
      ⟨hreach₁, List.prefix_refl _, fun _ => hosted_self hruns⟩
    constructor
    · rintro ⟨-, hrun⟩
      refine ⟨hstarts, hrun.map_of (I := Outlived sys₁.machine process) ?_ hstart⟩
      rintro s move s' hs ⟨hmove, hkeeps⟩
      have hs' := outlived_step hs hmove
      refine ⟨⟨hmove, fun hdown => ?_⟩, hs'⟩
      exact (follows_iff hs.1.machine hs'.1.machine hmove hdown).mp (hkeeps hdown).2
    · rintro ⟨-, hrun⟩
      refine ⟨tended_of_hosted hreach₁.machine hshut (hosted_self hruns),
        hrun.map_of (I := Outlived sys₁.machine process) ?_ hstart⟩
      rintro s move s' hs ⟨hmove, hpasses⟩
      have hs' := outlived_step hs hmove
      refine ⟨⟨hmove, fun hdown => ⟨?_, ?_⟩⟩, hs'⟩
      · exact tended_of_hosted hs'.1.machine hdown (hs'.2.2 hdown)
      · exact (follows_iff hs.1.machine hs'.1.machine hmove hdown).mpr (hpasses hdown)
  · exact iff_of_false (fun h => hlingers h.1) fun h => hfails h.1

/-- The first command cannot be executed. -/
def notFound : Os := { steadyOs 0 0 [] with
  start := { (steadyOs 0 0 []).start with
    spawn := .error ⟨.other, some 2, "No such file or directory (os error 2)"⟩ } }

/-- The shell runs as process 50; then its SIGCHLD waits on the channel. -/
def shellEnding : List Choice := [.receive (steadyOs 50 9 []), .post (.signal SIGCHLD)]

/-- `waitpid` returns the shell with this wait status. -/
def shellReaped (raw : Nat) : Os :=
  steadyOs 0 0 [⟨50, ⟨raw⟩, (steadyOs 0 0 []).start⟩]

theorem runsShell : RunsBootstrap (systemAfter shellEnding).machine ⟨50, none, 9⟩ := by
  have hstatus : ((systemAfter shellEnding).machine.get? bootstrapName).map (·.state.status)
      = some (.running ⟨50, none, 9⟩ none) := by decide +kernel
  obtain ⟨s, hget, hst⟩ := Option.map_eq_some_iff.mp hstatus
  exact ⟨s, none, hget, hst⟩

/-- The shell is there, and beam-init ends when it exits with code 3. -/
theorem bootstrap_is_tended_shell :
    Tended (systemAfter [.receive (steadyOs 50 9 [])]).machine
      ∧ Run (Where SysStep fun s _ s' => s'.machine.mgr.shutdown = false →
          Tended s'.machine ∧ Follows shellContext s.machine s'.machine)
        (systemAfter [.receive (steadyOs 50 9 [])])
        [.posted (.signal SIGCHLD), .received (shellReaped 768) (.posted (.signal SIGCHLD)) .silent]
        (systemAfter (shellEnding ++ [.receive (shellReaped 768)])) := by
  have hstep : SysStep (systemAfter []) (.received (steadyOs 50 9 [])
      (.posted (bootstrapCommand "/bin/sh" [] 10))
      (.response (.ok (.created ⟨"/bin/sh", [], ∅, none, false, ∅, 10⟩))))
      (systemAfter [.receive (steadyOs 50 9 [])]) :=
    systemAfter_receive (by decide +kernel) rfl (by decide +kernel)
  have hstarts : Starts (steadyOs 50 9 []) (bootstrapConfig (steadyOs 50 9 []) "/bin/sh" [] 10) :=
    ⟨by decide +kernel, ⟨50, none, 9⟩, by decide +kernel⟩
  have hposted : SysStep (systemAfter [.receive (steadyOs 50 9 [])]) (.posted (.signal SIGCHLD))
      (systemAfter shellEnding) := systemAfter_post (by decide +kernel)
  have hreap : SysStep (systemAfter shellEnding)
      (.received (shellReaped 768) (.posted (.signal SIGCHLD)) .silent)
      (systemAfter (shellEnding ++ [.receive (shellReaped 768)])) :=
    systemAfter_receive (by decide +kernel) (by decide +kernel) (by decide +kernel)
  refine (bootstrap_is_tended (.nil _) (fun _ h => nomatch h) hstep).mpr
    ⟨hstarts, .cons ⟨hposted, fun _ => ?_⟩ (.cons ⟨hreap, fun _ => ?_⟩ (.nil _))⟩
  · have hquiet : newEffects (systemAfter [.receive (steadyOs 50 9 [])]).machine
        (systemAfter shellEnding).machine = [] := by decide +kernel
    intro process _ status hstatus
    rw [hquiet] at hstatus
    cases hstatus
  · have hreaped : newEffects (systemAfter shellEnding).machine
        (systemAfter (shellEnding ++ [.receive (shellReaped 768)])).machine
        = [.reaped 50 ⟨768⟩] := by decide +kernel
    intro process hruns status hstatus signal hsignal
    rw [hreaped, firstReap, List.findSome?_singleton, reapedStatus] at hstatus
    obtain ⟨-, hstatus⟩ := Option.ite_none_right_eq_some.mp hstatus
    cases hstatus
    cases hsignal

/-- **A first start that fails**: beam-init waits for events without its bootstrap
    service.  **A signal that is not passed on**: the shell is killed by SIGTERM,
    and beam-init, which blocks that signal, ends by SIGABRT. -/
theorem failed_start_lingers :
    (SysReachable (systemAfter [.receive notFound])
        ∧ (systemAfter [.receive notFound]).machine.mgr.shutdown = false
        ∧ ¬ Tended (systemAfter [.receive notFound]).machine)
      ∧ SysStep (systemAfter shellEnding)
          (.received (shellReaped 15) (.posted (.signal SIGCHLD)) .silent)
          (systemAfter (shellEnding ++ [.receive (shellReaped 15)]))
      ∧ processEnd shellContext
          (afterEvent (systemAfter (shellEnding ++ [.receive (shellReaped 15)])).machine)
          = some (.signal SIGABRT)
      ∧ ¬ Follows shellContext (systemAfter shellEnding).machine
          (systemAfter (shellEnding ++ [.receive (shellReaped 15)])).machine := by
  have hend : processEnd shellContext
      (afterEvent (systemAfter (shellEnding ++ [.receive (shellReaped 15)])).machine)
      = some (.signal SIGABRT) := by decide +kernel
  refine ⟨⟨systemAfter_reachable (by decide +kernel), by decide +kernel,
    not_tended (by decide +kernel) fun s hget => ?_⟩,
    systemAfter_receive (by decide +kernel) (by decide +kernel) (by decide +kernel), hend,
    fun hfollows => ?_⟩
  · have hstatus : ((systemAfter [.receive notFound]).machine.get? bootstrapName).map
        (·.state.status)
        = some (.error ⟨.other, some 2, "No such file or directory (os error 2)"⟩) := by
      decide +kernel
    rw [hget] at hstatus
    exact ⟨_, Option.some.inj hstatus⟩
  · obtain ⟨e, he, hends⟩ := hfollows _ runsShell ⟨15⟩ (by decide +kernel)
    cases he
    exact nomatch hend.symm.trans hends

end BeamBootstrap
