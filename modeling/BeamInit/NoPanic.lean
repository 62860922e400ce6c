import BeamInit.Signals

/-! # No panic — every event comes back

    A panic in the main task takes PID 1 down.  Under what the system promises
    about children it still has and pipes it still holds, each operation returns
    when it is run in a consistent state: the placeholder status is never met,
    no `expect` fires, and only unreaped processes are signalled. -/

namespace BeamNoPanic

open BeamApi BeamOs BeamLogs BeamService BeamSpawnArgs BeamManager BeamCommands BeamMainLoop
open BeamLifecycle BeamOperations BeamRefinement BeamConsistency BeamSignals Runs

/-! ## Computations that return -/

/-- The computation does not panic. -/
def Returns {α : Type} (x : Except Panic α) : Prop := ∃ a, x = .ok a

section Returns

variable {α β : Type} {x : Except Panic α} {f : α → Except Panic β}

theorem Returns.ok (a : α) : Returns (.ok a) := ⟨a, rfl⟩

/-- A computation returns if each of its two parts does. -/
theorem Returns.bind (hx : Returns x) (hf : ∀ a, x = .ok a → Returns (f a)) :
    Returns (x >>= f) := by
  obtain ⟨a, rfl⟩ := hx
  exact hf a rfl

/-- A loop returns if its body does, wherever an invariant of the loop holds. -/
theorem returns_foldlM {γ : Type} {I : γ → Prop} {body : γ → α → Except Panic γ} {xs : List α}
    (hbody : ∀ c, ∀ a ∈ xs, I c → Returns (body c a))
    (hstep : ∀ c a c', a ∈ xs → I c → body c a = .ok c' → I c') {c : γ} (hc : I c) :
    Returns (xs.foldlM body c) := by
  induction xs generalizing c with
  | nil => exact .ok c
  | cons a xs ih =>
      rw [List.foldlM_cons]
      refine (hbody c a List.mem_cons_self hc).bind fun c' hc' => ?_
      exact ih (fun c b hb => hbody c b (List.mem_cons_of_mem _ hb))
        (fun c b c' hb => hstep c b c' (List.mem_cons_of_mem _ hb))
        (hstep c a c' List.mem_cons_self hc hc')

/-- A loop returns if every round does. -/
theorem returns_mapM {xs : List α} (h : ∀ a ∈ xs, Returns (f a)) : Returns (xs.mapM f) := by
  induction xs with
  | nil => exact .ok []
  | cons a xs ih =>
      rw [List.mapM_cons]
      exact (h a List.mem_cons_self).bind fun _ _ =>
        (ih fun b hb => h b (List.mem_cons_of_mem _ hb)).bind fun _ _ => .ok _

end Returns

/-! ## What the system promises -/

/-- The process is there to be signalled: directly, or after ESRCH because it
    moved to another process group. -/
structure Signallable (os : Os) (process : ServiceProcess) : Prop where
  valid : 1 < process.mainPid
  killed : ∀ sig, 0 < sig → sig < 32 → os.kill (-process.mainPid) sig = none
    ∨ (∃ e, os.kill (-process.mainPid) sig = some e ∧ e.rawOsError = some ESRCH
      ∧ os.kill process.mainPid sig = none)

/-- A writer pipe can be created. -/
def WriterMade (start : StartOutcome) : Prop := ∃ task, start.writer = .ok task

/-- The pipes of a PTY monitor work, or tell that the monitor is gone. -/
structure MonitorPipes (os : Os) : Prop where
  write : ∀ pid byte e, os.monitorWrite pid byte = some e → e.kind = .brokenPipe
  read : ∀ pid byte e, os.monitorRead pid byte = some e → e.kind = .unexpectedEof

/-- The assumptions about the answers given while one event is handled. -/
structure Cooperative (os : Os) (m : Machine) : Prop where
  kill : ∀ child ∈ unreaped m.trace, ∀ sig, 0 < sig → sig < 32 →
    os.kill (-child.mainPid) sig = none
      ∨ (∃ e, os.kill (-child.mainPid) sig = some e ∧ e.rawOsError = some ESRCH
        ∧ os.kill child.mainPid sig = none)
  pipes : MonitorPipes os
  writer : WriterMade os.start
  reapWriter : ∀ reap ∈ os.reaped, WriterMade reap.start
  /-- `waitpid` reports exits and terminating signals. -/
  status : ∀ reap ∈ os.reaped, reap.status.code.isSome ∨ reap.status.signal.isSome
  waitError : ∀ e, os.waitError = some e → e.rawOsError = some ECHILD
  dup : ∀ e, os.dup = some e → e.rawOsError = some EMFILE

/-! ## Signals and monitor commands -/

section Operations

variable {os : Os} {m m' : Machine} {credentials : Credentials} {name : String} {s : Service}
variable {process : ServiceProcess}

/-- A command that can be encoded is sent, whether the monitor reads it or has exited. -/
theorem send_ok (hpipes : MonitorPipes os) (tx : MonitorCommandSender) {cmd : MonitorCommand}
    {byte : UInt8} (hser : cmd.ser = .ok byte) : tx.send os cmd = .ok (.ok ()) := by
  rw [MonitorCommandSender.send, hser]
  cases hwrite : os.monitorWrite tx.monitor byte with
  | some e =>
      simp only [bind, Except.bind, hwrite]
      exact if_pos (hpipes.write _ _ e hwrite)
  | none =>
      cases hread : os.monitorRead tx.monitor byte with
      | none => simp only [bind, Except.bind, hwrite, hread]; rfl
      | some e =>
          simp only [bind, Except.bind, hwrite, hread]
          exact if_pos (hpipes.read _ _ e hread)

/-- A process that may be signalled is signalled, in its group or alone. -/
theorem killProcessGroup_ok (h : Signallable os process) {sig : Int} (h0 : 0 < sig)
    (h1 : sig < 32) : killProcessGroup os process.mainPid sig = .ok (.ok ()) := by
  rw [killProcessGroup]
  rw [if_pos h.valid]
  rcases h.killed sig h0 h1 with hkill | ⟨e, hkill, herrno, hsingle⟩
  · rw [hkill]
  · rw [hkill]
    dsimp only
    rw [if_pos herrno, hsingle]

/-- `send_signal` returns on either path. -/
theorem sendSignal_returns (hpipes : MonitorPipes os) (h : Signallable os process) {sig : Int}
    (h0 : 0 < sig) (h1 : sig < 32) : Returns (process.sendSignal os sig) := by
  rw [ServiceProcess.sendSignal]
  cases process.monitorTx with
  | some tx =>
      dsimp only
      rw [send_ok hpipes tx (ser_signal_ok h0 h1)]
      exact .ok _
  | none =>
      dsimp only
      rw [killProcessGroup_ok h h0 h1]
      exact .ok _

/-! ## Operations on one entry -/

/-- The status can be shown: it is not the placeholder, and an exit status in
    it is an exit or a signal. -/
def Shown (status : ServiceStatus) : Prop := ∃ api, status.toApi = .ok api

/-- A status that `waitpid` gives has a form in the API. -/
theorem shown_exited {status : StdExitStatus} (h : status.code.isSome ∨ status.signal.isSome) :
    Shown (.exited status) := by
  show ∃ api, (do return .exited (← status.toApi) : Except Panic ApiServiceStatus) = .ok api
  rw [StdExitStatus.toApi]
  cases hcode : status.code with
  | some code => exact ⟨_, rfl⟩
  | none =>
      cases hsignal : status.signal with
      | some signal => exact ⟨_, rfl⟩
      | none => rw [hcode, hsignal] at h; exact absurd h (by decide)

/-- A status that has a form in the API can be published. -/
theorem setStatus_returns (s : Service) {status : ServiceStatus} (h : Shown status) :
    Returns (s.setStatus status) := by
  obtain ⟨api, hapi⟩ := h
  rw [Service.setStatus]
  rw [hapi]
  exact .ok _

/-- The body of `start_service` returns, whether the spawn works or not. -/
theorem startEntry_returns {os : StartOutcome} (hwriter : WriterMade os) (name : String)
    (reason : StartReason) (s : Service) : Returns (startEntry os name reason s) := by
  have hspawn : ∀ s pty, Returns (spawnInto os name s pty) := by
    intro s pty
    rw [spawnInto]
    cases spawnService os s.config pty.isSome with
    | ok process => exact (setStatus_returns s ⟨_, rfl⟩).bind fun _ _ => .ok _
    | error err => exact (setStatus_returns s ⟨_, rfl⟩).bind fun _ _ => .ok _
  rw [startEntry]
  dsimp only
  split
  · exact (setStatus_returns _ ⟨_, rfl⟩).bind fun _ _ => .ok _
  · exact (hspawn _ _).bind fun _ _ => .ok _
  · obtain ⟨task, htask⟩ := hwriter
    have hnew : Returns (expect "failed to create log writer"
        (s.state.logs.newWriter os.writer)) := by
      rw [htask]
      exact .ok _
    exact hnew.bind fun _ _ => (hspawn _ _).bind fun _ _ => .ok _

/-- The body of `freeze_service` returns in every status. -/
theorem freezeEntry_returns (hpipes : MonitorPipes os) (hshown : Shown s.state.status)
    (hsig : ∀ p, s.state.status.process? = some p → Signallable os p) :
    Returns (freezeEntry os s) := by
  unfold freezeEntry
  dsimp only
  cases hst : s.state.status with
  | running process pty =>
      have hp : Signallable os process := hsig process (by rw [hst]; rfl)
      exact (sendSignal_returns hpipes hp (by decide) (by decide)).bind fun _ _ =>
        (setStatus_returns _ ⟨_, rfl⟩).bind fun _ _ => .ok _
  | dummy => rw [hst] at hshown; exact nomatch hshown
  | stopped | frozen _ _ | stopping _ _ _ | exited _ | error _ =>
      exact (setStatus_returns _ (hst ▸ hshown)).bind fun _ _ => .ok _

/-- The body of `thaw_service` returns in every status. -/
theorem thawEntry_returns (hpipes : MonitorPipes os) (hshown : Shown s.state.status)
    (hsig : ∀ p, s.state.status.process? = some p → Signallable os p) :
    Returns (thawEntry os name s) := by
  unfold thawEntry
  dsimp only
  cases hst : s.state.status with
  | frozen process pty =>
      have hp : Signallable os process := hsig process (by rw [hst]; rfl)
      exact (sendSignal_returns hpipes hp (by decide) (by decide)).bind fun _ _ =>
        (setStatus_returns _ ⟨_, rfl⟩).bind fun _ _ => .ok _
  | dummy => rw [hst] at hshown; exact nomatch hshown
  | stopped | running _ _ | stopping _ _ _ | exited _ | error _ =>
      exact (setStatus_returns _ (hst ▸ hshown)).bind fun _ _ => .ok _

/-! ## Operations of the manager -/

/-- Every entry can be shown and, if it has a process, signalled. -/
def Ready (os : Os) (m : Machine) : Prop :=
  ∀ name s, m.get? name = some s → Shown s.state.status
    ∧ ∀ p, s.state.status.process? = some p → Signallable os p

/-- What a consistent state asks of the system, a cooperative one grants. -/
theorem ready_of_cooperative (hm : Consistent m) (hfresh : SpawnsFresh m.trace)
    (hos : Cooperative os m) : Ready os m := by
  intro name s hget
  refine ⟨⟨_, hm.shown name s hget⟩, fun p hp => ?_⟩
  have hchild : p ∈ unreaped m.trace :=
    (hm.accounts.held p).mpr ⟨name, Option.bind_eq_some_iff.mpr ⟨s, hget, hp⟩⟩
  obtain ⟨other, hspawned⟩ := spawned_of_unreaped hchild
  obtain ⟨pre, post, htrace⟩ := List.append_of_mem hspawned
  exact ⟨(hfresh pre _ post htrace p rfl).1, hos.kill p hchild⟩

/-- `start_service` returns: a failed spawn is an error, not a panic. -/
theorem startService_returns {os : StartOutcome} (hwriter : WriterMade os) (m : Machine)
    (credentials : Credentials) (name : String) (reason : StartReason) :
    Returns (startService os m credentials name reason) := by
  rw [startService]
  by_cases hshut : m.mgr.shutdown = true
  · rw [if_pos hshut]; exact .ok _
  rw [if_neg hshut]
  cases m.get? name with
  | none => exact .ok _
  | some s =>
      dsimp only
      cases s.checkCredentials credentials with
      | error e => exact .ok _
      | ok u => exact (startEntry_returns hwriter name reason s).bind fun _ _ => .ok _

/-- A termination without a grace period sends SIGKILL and returns. -/
theorem graceKill_returns (hpipes : MonitorPipes os) (h : Signallable os process) (period : Nat) :
    Returns (graceKill os name process period) := by
  rw [graceKill]
  by_cases hp : period = 0
  · rw [if_pos hp]
    exact (sendSignal_returns hpipes h (by decide) (by decide)).bind fun _ _ => .ok _
  · rw [if_neg hp]
    exact .ok _

/-- `terminate_service_inner` returns in every status and for every request. -/
theorem terminateServiceInner_returns (hpipes : MonitorPipes os) (hwriter : WriterMade os.start)
    (hready : Ready os m) (credentials : Credentials) (name : String) (requested : AfterStop) :
    Returns (terminateServiceInner os m credentials name requested) := by
  unfold terminateServiceInner
  cases hget : m.get? name with
  | none => exact .ok _
  | some s =>
      obtain ⟨hshown, hsig⟩ := hready name s hget
      dsimp only
      cases hst : s.state.status with
      | stopped | exited _ | error _ =>
          dsimp only
          unfold terminateDead
          cases requested with
          | stop => exact (setStatus_returns _ (hst ▸ hshown)).bind fun _ _ => .ok _
          | prune => exact .ok _
          | restart reason => exact startService_returns hwriter _ _ _ _
      | stopping p afterStop kill => exact (setStatus_returns _ ⟨_, rfl⟩).bind fun _ _ => .ok _
      | frozen p pty =>
          have hp : Signallable os p := hsig p (by rw [hst]; rfl)
          exact (sendSignal_returns hpipes hp (by decide) (by decide)).bind fun _ _ =>
            (setStatus_returns _ ⟨_, rfl⟩).bind fun _ _ => .ok _
      | running p pty =>
          have hp : Signallable os p := hsig p (by rw [hst]; rfl)
          exact (sendSignal_returns hpipes hp (by decide) (by decide)).bind fun _ _ =>
            (graceKill_returns hpipes hp _).bind fun _ _ =>
              (setStatus_returns _ ⟨_, rfl⟩).bind fun _ _ => .ok _
      | dummy => rw [hst] at hshown; exact nomatch hshown

/-- Stopping, pruning or restarting a service returns. -/
theorem stopServiceCmd_returns (hpipes : MonitorPipes os) (hwriter : WriterMade os.start)
    (hready : Ready os m) (credentials : Credentials) (name : String) (request : AfterStop) :
    Returns (stopServiceCmd os m credentials name request) := by
  rw [stopServiceCmd_eq]
  cases getService m credentials name with
  | error e => exact .ok _
  | ok s =>
      dsimp only
      split_ifs
      · exact .ok _
      · exact .ok _
      · exact terminateServiceInner_returns hpipes hwriter hready _ _ _

/-- An operation on one entry returns if its body does on every service that can be shown.
    -/
theorem onEntry_returns {change : Service → Except Panic (Service × List Effect)}
    (hready : Ready os m) (credentials : Credentials) (name : String)
    (hchange : ∀ s, Shown s.state.status →
      (∀ p, s.state.status.process? = some p → Signallable os p) → Returns (change s)) :
    Returns (onEntry m credentials name change) := by
  rw [onEntry]
  cases hget : getServiceMut m credentials name with
  | error e => exact .ok _
  | ok s =>
      obtain ⟨hshown, hsig⟩ := hready name s (getServiceMut_iff.mp hget).2.1
      exact (hchange s hshown hsig).bind fun _ _ => .ok _

/-- `freeze_service` returns. -/
theorem freezeService_returns (hpipes : MonitorPipes os) (hready : Ready os m)
    (credentials : Credentials) (name : String) :
    Returns (freezeService os m credentials name) := by
  rw [freezeService_eq]
  exact onEntry_returns hready _ _ fun _ => freezeEntry_returns hpipes

/-- `thaw_service` returns. -/
theorem thawService_returns (hpipes : MonitorPipes os) (hready : Ready os m)
    (credentials : Credentials) (name : String) :
    Returns (thawService os m credentials name) := by
  rw [thawService_eq]
  exact onEntry_returns hready _ _ fun _ => thawEntry_returns hpipes

/-- `force_kill_service` returns, also for a token of an earlier termination. -/
theorem forceKillService_returns (hpipes : MonitorPipes os) (hready : Ready os m) (name : String)
    (token : TerminationToken) : Returns (forceKillService os m name token) := by
  rw [forceKillService]
  cases hget : m.get? name with
  | none => exact .ok _
  | some s =>
      dsimp only
      split
      · rename_i p afterStop kill hst
        have hp : Signallable os p := (hready name s hget).2 p (by rw [hst]; rfl)
        by_cases htoken : kill.token = token
        · rw [if_pos htoken]
          exact (sendSignal_returns hpipes hp (by decide) (by decide)).bind fun _ _ => .ok _
        · rw [if_neg htoken]
          exact .ok _
      · exact .ok _

/-- `get_pty` returns: running out of descriptors is an error, not a panic. -/
theorem getPty_returns (hdup : ∀ e, os.dup = some e → e.rawOsError = some EMFILE)
    (hready : Ready os m) (credentials : Credentials) (name : String) :
    Returns (getPty os m credentials name) := by
  rw [getPty]
  cases hget : getService m credentials name with
  | error e => exact .ok _
  | ok s =>
      have hshown := (hready name s (getService_iff.mp hget).1).1
      dsimp only
      split
      · split
        · exact .ok _
        · rename_i e he
          rw [if_pos (hdup e he)]
          exact .ok _
      · split
        · exact .ok _
        · rename_i e he
          rw [if_pos (hdup e he)]
          exact .ok _
      all_goals first | exact .ok _ | skip
      rename_i hst
      rw [hst] at hshown
      exact nomatch hshown

/-- The two notifications return. -/
theorem notifyPty_returns {cmd : MonitorCommand} {byte : UInt8} (hser : cmd.ser = .ok byte)
    (hpipes : MonitorPipes os) (hready : Ready os m) (credentials : Credentials) (name : String) :
    Returns (notifyPty cmd os m credentials name) := by
  unfold notifyPty
  cases hget : getServiceMut m credentials name with
  | error e => exact .ok _
  | ok s =>
      have hshown := (hready name s (getServiceMut_iff.mp hget).2.1).1
      dsimp only
      cases hst : s.state.status with
      | running p pty | frozen p pty =>
          dsimp only
          cases p.monitorTx with
          | none => exact .ok _
          | some tx =>
              dsimp only
              rw [send_ok hpipes tx hser]
              exact .ok _
      | dummy => rw [hst] at hshown; exact nomatch hshown
      | stopped | stopping _ _ _ | exited _ | error _ => exact .ok _

/-- `send_signal` returns for every number, in or out of range. -/
theorem sendSignalRequest_returns (hpipes : MonitorPipes os) (hready : Ready os m)
    (credentials : Credentials) (name : String) (sig : Int) :
    Returns (sendSignal os m credentials name sig) := by
  unfold sendSignal
  cases hget : getServiceMut m credentials name with
  | error e => exact .ok _
  | ok s =>
      obtain ⟨hshown, hsig⟩ := hready name s (getServiceMut_iff.mp hget).2.1
      dsimp only
      by_cases hvalid : sig ≤ 0 ∨ sig ≥ 32
      · rw [if_pos hvalid]; exact .ok _
      · rw [if_neg hvalid]
        cases hst : s.state.status with
        | running p _ | frozen p _ | stopping p _ _ =>
            have hp : Signallable os p := hsig p (by rw [hst]; rfl)
            exact (sendSignal_returns hpipes hp (by omega) (by omega)).bind fun _ _ => .ok _
        | dummy => rw [hst] at hshown; exact nomatch hshown
        | stopped | exited _ | error _ => exact .ok _

/-- Every command of the API returns. -/
theorem handleApiCommand_returns (hpipes : MonitorPipes os) (hwriter : WriterMade os.start)
    (hready : Ready os m) (cmd : Command) (credentials : Credentials) :
    Returns (handleApiCommand os m cmd credentials) := by
  have hdone : ∀ {x : Except Panic (Outcome (Except ServiceError Unit))}, Returns x →
      Returns (do return answerDone (← x) : Except Panic _) :=
    fun hx => hx.bind fun _ _ => .ok _
  cases cmd with
  | createService name service =>
      rw [handleApiCommand]
      dsimp only
      cases serviceEnvironment os m credentials name service.env with
      | error e => exact .ok _
      | ok env =>
          dsimp only
          split
          · exact .ok _
          · exact (startService_returns hwriter _ _ _ _).bind fun _ _ => .ok _
  | restartService name | stopService name prune =>
      exact hdone (stopServiceCmd_returns hpipes hwriter hready _ _ _)
  | freezeService name => exact hdone (freezeService_returns hpipes hready _ _)
  | thawService name => exact hdone (thawService_returns hpipes hready _ _)
  | showService name =>
      unfold handleApiCommand
      dsimp only
      cases hget : getService m credentials name with
      | error e => exact .ok _
      | ok s =>
          obtain ⟨api, hapi⟩ := (hready name s (getService_iff.mp hget).1).1
          have hshow : Returns (toApiService s) := by
            rw [toApiService]
            rw [hapi]
            exact .ok _
          exact hshow.bind fun _ _ => .ok _
  | listServices =>
      refine (returns_mapM fun entry hmem => ?_).bind fun _ _ => .ok _
      obtain ⟨⟨name, s⟩, hentry, rfl⟩ := List.mem_map.mp hmem
      have hget : m.get? name = some s :=
        Std.ExtTreeMap.mem_toList_iff_getElem?_eq_some.mp (List.mem_of_mem_filter hentry)
      obtain ⟨api, hapi⟩ := (hready name s hget).1
      dsimp only
      rw [hapi]
      exact .ok _
  | serviceLogs name follow => cases follow <;> exact .ok _
  | notifyPtyAttached name => exact hdone (notifyPty_returns rfl hpipes hready _ _)
  | notifyPtyDetached name => exact hdone (notifyPty_returns rfl hpipes hready _ _)
  | sendSignal name sig => exact hdone (sendSignalRequest_returns hpipes hready _ _ _)
  | forceKillService name token =>
      exact (forceKillService_returns hpipes hready name token).bind fun _ _ => .ok _

/-! ## Signals -/

/-- Stopping a service keeps its process, and leaves a status that can be shown. -/
theorem transition_stop_ready {shutdown : Bool} {entry : Option Service} {out : List Effect}
    (h : Transition shutdown name (.terminate .stop) (some s) out entry) :
    ∃ s', entry = some s' ∧ Shown s'.state.status
      ∧ s'.state.status.process? = s.state.status.process? := by
  cases h with
  | stopDead _ hu => exact ⟨_, rfl, ⟨_, update_shown hu⟩, by rw [hu.status_eq]⟩
  | merge _ hst hu | terminateFrozen _ hst hu | terminateRunning _ hst _ hu =>
      exact ⟨_, rfl, ⟨_, update_shown hu⟩, by rw [hu.status_eq, hst]; rfl⟩

/-- A stop leaves every service as ready to be signalled as it was. -/
theorem ready_stop (hready : Ready os m) {result : Except ServiceError Unit}
    (h : terminateServiceInner os m .root name .stop = .ok (result, m')) : Ready os m' := by
  cases hget : m.get? name with
  | none =>
      unfold terminateServiceInner at h
      rw [hget] at h
      cases h
      exact hready
  | some s =>
      obtain ⟨hstep, -⟩ := terminateServiceInner_ok h hget nofun
      obtain ⟨out, entry, ht, rfl⟩ := hstep.act_inv
      rw [hget] at ht
      obtain ⟨s', rfl, hshown, hprocess⟩ := transition_stop_ready ht
      intro other t hother
      rw [get?_write] at hother
      by_cases hname : name = other
      · rw [if_pos hname] at hother
        cases hother
        exact ⟨hshown, hprocess ▸ (hready name s hget).2⟩
      · rw [if_neg hname] at hother
        exact hready other t hother

/-- The loop of `begin_shutdown` returns: it stops one service after the other. -/
theorem beginShutdown_returns (hpipes : MonitorPipes os) (hwriter : WriterMade os.start)
    (hready : Ready os m) : Returns (beginShutdown os m) := by
  rw [beginShutdown]
  by_cases hshut : m.mgr.shutdown = true
  · rw [if_pos hshut]; exact .ok _
  · rw [if_neg hshut]
    refine returns_foldlM (I := Ready os) (fun m name _ hready => ?_)
      (fun m name m' _ hready h => ?_) hready
    · exact (terminateServiceInner_returns hpipes hwriter hready _ _ _).bind fun _ _ => .ok _
    · obtain ⟨⟨result, m₁⟩, hinner, h⟩ := bind_eq_ok.mp h
      cases h
      exact ready_stop hready hinner

/-- Reaping a child panics in no state: the service found is there to be removed. -/
theorem reapChild_returns {reap : Reap} (hwriter : WriterMade reap.start)
    (hstatus : reap.status.code.isSome ∨ reap.status.signal.isSome) (m : Machine) :
    Returns (reapChild reap m) := by
  rw [reapChild]
  dsimp only
  cases hfind : (m.emit [.reaped reap.pid reap.status]).mgr.services.toList.find?
      (fun entry => isMain entry.2.state.status reap.pid) with
  | none => exact .ok _
  | some entry =>
      obtain ⟨name, s⟩ := entry
      have hget : m.get? name = some s :=
        Std.ExtTreeMap.mem_toList_iff_getElem?_eq_some.mp (List.mem_of_find?_eq_some hfind)
      dsimp only
      cases s.state.status with
      | running p pty | frozen p pty =>
          exact (setStatus_returns _ (shown_exited hstatus)).bind fun _ _ => .ok _
      | stopping p afterStop kill =>
          cases afterStop with
          | stop => exact (setStatus_returns _ ⟨_, rfl⟩).bind fun _ _ => .ok _
          | prune =>
              dsimp only
              rw [get?_emit, hget]
              exact .ok _
          | restart reason => exact (startService_returns hwriter _ _ _ _).bind fun _ _ => .ok _
      | stopped | exited _ | error _ | dummy => exact .ok _

/-- `handle_signal` returns for every signal. -/
theorem handleSignal_returns (hos : Cooperative os m) (hready : Ready os m) (signo : Int) :
    Returns (handleSignal os m signo) := by
  have hwait : Returns (waitChildren os m) := by
    refine (returns_foldlM (I := fun _ => True) (fun m reap hmem _ => ?_)
      (fun _ _ _ _ _ _ => trivial) trivial).bind fun m _ => ?_
    · exact reapChild_returns (hos.reapWriter reap hmem) (hos.status reap hmem) m
    · cases herror : os.waitError with
      | none => exact .ok _
      | some e =>
          dsimp only
          rw [if_pos (hos.waitError e herror)]
          exact .ok _
  by_cases hchld : signo = SIGCHLD
  · subst hchld
    rw [handleSignal]
    rw [if_pos rfl]
    refine hwait.bind fun m₁ _ => ?_
    rw [if_neg (by decide)]
    exact .ok _
  · rw [handleSignal]
    rw [if_neg hchld]
    show Returns (if signo = SIGTERM ∨ signo = SIGINT then beginShutdown os m else .ok m)
    by_cases hterm : signo = SIGTERM ∨ signo = SIGINT
    · rw [if_pos hterm]
      exact beginShutdown_returns hos.pipes hos.writer hready
    · rw [if_neg hterm]
      exact .ok _

/-- Every arm of the event loop returns. -/
theorem handleEvent_returns (hos : Cooperative os m) (hready : Ready os m) (event : Event) :
    Returns (handleEvent os m event) := by
  cases event with
  | signal signo => exact (handleSignal_returns hos hready signo).bind fun _ _ => .ok _
  | command cmd credentials =>
      exact (handleApiCommand_returns hos.pipes hos.writer hready cmd credentials).bind
        fun _ _ => .ok _
  | getPty name credentials =>
      exact (getPty_returns hos.dup hready credentials name).bind fun _ _ => .ok _
  | waitService name credentials => exact .ok _
  | probeFailed name =>
      have hprobe : Returns (handleProbeFailed os m name) := by
        refine (stopServiceCmd_returns hos.pipes hos.writer hready _ _ _).bind fun outcome _ => ?_
        obtain ⟨result, m₁⟩ := outcome
        cases result with
        | ok u => exact .ok _
        | error e =>
            dsimp only
            cases getService m₁ .root name <;> exact .ok _
      exact hprobe.bind fun _ _ => .ok _

end Operations

/-! ## The result -/

/-- **HEADLINE.** In every reachable state, whatever the event: it is handled
    without a panic, no service has the placeholder status, and every signal or
    monitor command of the run went to an unreaped child with a pid above 1. -/
theorem handling_never_panics {m : Machine} {os : Os} (h : Reachable m) (hos : Cooperative os m)
    (event : Event) :
    (∃ reply m', handleEvent os m event = .ok (reply, m'))
      ∧ (∀ name s, m.get? name = some s → s.state.status ≠ .dummy)
      ∧ ∀ reply m', Step m (.handled os event reply) m' → ∀ pre e post, m'.trace = pre ++ e :: post →
        ∀ process ∈ signalled e, 1 < process.mainPid ∧ process ∈ unreaped pre := by
  have hm := reachable_consistent h
  have hready := ready_of_cooperative hm (reachable_fresh h) hos
  refine ⟨?_, fun name s hget hdummy => ?_, fun reply m' hstep pre e post htrace process hp => ?_⟩
  · obtain ⟨⟨reply, m'⟩, hevent⟩ := handleEvent_returns hos hready event
    exact ⟨reply, m', hevent⟩
  · have := hm.shown name s hget
    rw [hdummy] at this
    exact nomatch this
  · have hm' := reachable_snoc h hstep
    have hchild := reachable_signalsLive hm' pre e post htrace process hp
    refine ⟨?_, hchild⟩
    -- the child was spawned with a valid pid
    obtain ⟨name, hspawned⟩ := spawned_of_unreaped hchild
    obtain ⟨before, after, hpre⟩ := List.append_of_mem hspawned
    rw [hpre, List.append_assoc] at htrace
    exact (reachable_fresh hm' before _ _ htrace process rfl).1

/-- A system where every call succeeds is a cooperative one. -/
theorem steadyOs_cooperative (pid : Pid) (run : Nat) (m : Machine) :
    Cooperative (steadyOs pid run []) m where
  kill _ _ _ _ _ := Or.inl rfl
  pipes := ⟨fun _ _ _ h => (nomatch (h : none = some _)), fun _ _ _ h => nomatch (h : none = some _)⟩
  writer := ⟨run, rfl⟩
  reapWriter _ h := absurd h List.not_mem_nil
  status _ h := absurd h List.not_mem_nil
  waitError _ h := nomatch (h : none = some _)
  dup _ h := nomatch (h : none = some _)

/-- Here the stop of `web`, by a system where every call succeeds. -/
theorem handling_never_panics_web :
    ∃ reply m', handleEvent stopWeb.1 (machineAfter [createWeb]) stopWeb.2 = .ok (reply, m') :=
  (handling_never_panics createWeb_reachable (steadyOs_cooperative 0 1 _) stopWeb.2).1

end BeamNoPanic
