import BeamInit.MainLoop

/-! # The life of a service — an abstract model of the manager

    Seen from outside, the manager is a table of services, and everything it
    does is one `Transition` of one entry at a time: an entry is created,
    started, frozen, thawed, terminated, reaped.  A transition says what becomes
    of the entry and which effects are produced, and nothing about lookups,
    credentials, temporary statuses or iteration order.  The invariants are
    proved about transitions; `BeamRefinement` shows that every event the main
    loop handles is a run of them. -/

namespace BeamLifecycle

open BeamApi BeamOs BeamLogs BeamPublisher BeamService BeamManager BeamMainLoop Runs

/-! ## Updates of one entry -/

/-- The statuses without a process. -/
def isDead : ServiceStatus → Bool
  | .stopped | .exited _ | .error _ => true
  | _ => false

/-- Nothing will run again once this status is left: the service has no process,
    or the one it has is being stopped for good. -/
def isSettled : ServiceStatus → Bool
  | .stopped | .exited _ | .error _ => true
  | .stopping _ afterStop _ => !afterStop.isRestart
  | _ => false

/-- `s'` is `s` with another status, probe handle and restart counter; the
    status has been published. -/
structure Update (s s' : Service) (status : ServiceStatus) (probe : Option AbortHandle)
    (attempts : Nat) : Prop where
  config_eq : s'.config = s.config
  status_eq : s'.state.status = status
  probe_eq : s'.state.livenessProbe = probe
  attempts_eq : s'.state.automaticRestartAttempts = attempts
  queue_eq : s'.state.logs.queue = s.state.logs.queue
  published : ∃ api, status.toApi = .ok api ∧
    s'.state.serviceStatusPublisher = s.state.serviceStatusPublisher.publish api

/-- The effects of `ServiceProcess::send_signal`. -/
def sentEffects (process : ServiceProcess) (signal : Int) : List Effect :=
  match process.monitorTx with
  | some _ => [.monitor process (.signal signal)]
  | none => [.kill process signal]

/-- The probe handle after `spawn_liveness_probe`. -/
def probeHandle (config : ServiceConfig) (old : Option AbortHandle) (task : AbortHandle) :
    Option AbortHandle :=
  if config.liveness.isSome then some task else old

def probeEffects (config : ServiceConfig) (task : AbortHandle) (name : String)
    (process : ServiceProcess) : List Effect :=
  if config.liveness.isSome then [.probeSpawned task name (some process)] else []

/-- Effects that only concern where a process writes its output. -/
def isSink : Effect → Bool
  | .writerSpawned .. | .writerAborted _ | .logMessage .. => true
  | _ => false

/-- `start_service` on an entry whose probe handle is `probe`: it ends Running or
    in Error. -/
inductive Start (name : String) (reason : StartReason) (s : Service)
    (probe : Option AbortHandle) : List Effect → Service → Prop where
  | running {s' : Service} {process : ServiceProcess} {pty : Option Pty} {task : AbortHandle}
      {sink : List Effect} :
      Update s s' (.running process pty) (probeHandle s.config probe task)
        (restartAttempts reason s.state.automaticRestartAttempts) →
      pty.isSome = s.config.pty → process.monitorTx = pty.map (fun _ => ⟨process.mainPid⟩) →
      (∀ e ∈ sink, isSink e = true) →
      Start name reason s probe
        (.starting name reason :: sink ++ .spawned name process ::
          probeEffects s.config task name process) s'
  | failed {s' : Service} {err : IoError} {sink : List Effect} :
      Update s s' (.error err) probe
        (restartAttempts reason s.state.automaticRestartAttempts) →
      (∀ e ∈ sink, isSink e = true) →
      Start name reason s probe (.starting name reason :: sink ++ [.spawnFailed name err]) s'
  | noPty {s' : Service} {err : IoError} :
      Update s s' (.error err) probe
        (restartAttempts reason s.state.automaticRestartAttempts) →
      Start name reason s probe [.starting name reason] s'

/-! ## Effects that do not occur -/

/-- None of the effects is of the kind `p`. -/
def Lacks (p : Effect → Bool) (out : List Effect) : Prop := ∀ e ∈ out, p e = false

section Lacks

variable {p : Effect → Bool} {out out' : List Effect}

theorem Lacks.nil : Lacks p [] := nofun

theorem Lacks.cons {e : Effect} (he : p e = false) (h : Lacks p out) : Lacks p (e :: out) :=
  List.forall_mem_cons.mpr ⟨he, h⟩

/-- A property that two lists lack is lacked by the two together. -/
theorem Lacks.append (h : Lacks p out) (h' : Lacks p out') : Lacks p (out ++ out') :=
  List.forall_mem_append.mpr ⟨h, h'⟩

/-- Sending a signal is one `kill` or one command to the monitor. -/
theorem lacks_sent {process : ServiceProcess} {sig : Int} (hkill : p (.kill process sig) = false)
    (hmonitor : p (.monitor process (.signal sig)) = false) :
    Lacks p (sentEffects process sig) := by
  rw [sentEffects]
  cases process.monitorTx with
  | some _ => exact .cons hmonitor .nil
  | none => exact .cons hkill .nil

/-- Aborting a task is that one effect, or none. -/
theorem lacks_abort {effect : AbortHandle → Effect} (heffect : ∀ task, p (effect task) = false)
    (task : Option AbortHandle) : Lacks p (abortTask effect task) := by
  cases task with
  | none => exact .nil
  | some task => exact .cons (heffect task) .nil

/-- Dropping a service only ends its log writer. -/
theorem lacks_dropped (hwriter : ∀ task, p (.writerAborted task) = false) (s : Service) :
    Lacks p s.dropped :=
  lacks_abort hwriter s.state.logs.abortHandle

/-- Spawning a probe is that one effect, or none. -/
theorem lacks_probe {config : ServiceConfig} {task : AbortHandle} {name : String}
    {process : ServiceProcess} (h : p (.probeSpawned task name (some process)) = false) :
    Lacks p (probeEffects config task name process) := by
  rw [probeEffects]
  cases config.liveness.isSome
  · exact .nil
  · exact .cons h .nil

end Lacks

/-! ## Transitions -/

inductive Action where
  | create
  | start (reason : StartReason)
  | keep
  | signal
  | freeze
  | thaw
  | terminate (request : AfterStop)
  | reap (pid : Pid)
  | log
deriving DecidableEq

/-- The service `create_service` inserts. -/
structure Created (s : Service) : Prop where
  status : s.state.status = .stopped
  attempts : s.state.automaticRestartAttempts = 0
  probe : s.state.livenessProbe = none
  published : s.state.serviceStatusPublisher = .new .stopped

/-- The grace period of a running service, as `graceKill` leaves it. -/
inductive Grace (name : String) (process : ServiceProcess) (period : Nat) :
    Option PendingKill → List Effect → Prop where
  | now : period = 0 → Grace name process period none (sentEffects process SIGKILL)
  | timer {token : TerminationToken} {task : AbortHandle} : period ≠ 0 →
      Grace name process period (some ⟨token, task⟩) [.timerSpawned task name token process period]

/-- **One step in the life of the service `name`**: what an action makes of its
    entry, and the effects, given whether shutdown has been initiated. -/
inductive Transition (shutdown : Bool) (name : String) :
    Action → Option Service → List Effect → Option Service → Prop where
  | create {s : Service} : shutdown = false → Created s →
      Transition shutdown name .create none [] (some s)
  | start {s s' : Service} {reason : StartReason} {out : List Effect} :
      shutdown = false → isDead s.state.status = true →
      Start name reason s s.state.livenessProbe out s' →
      Transition shutdown name (.start reason) (some s) out (some s')
  | keep {s s' : Service} :
      Update s s' s.state.status s.state.livenessProbe s.state.automaticRestartAttempts →
      Transition shutdown name .keep (some s) [] (some s')
  | signal {s : Service} {process : ServiceProcess} {out : List Effect} :
      s.state.status.process? = some process →
      ((∃ cmd, out = [.monitor process cmd]) ∨ ∃ sig, out = sentEffects process sig) →
      Transition shutdown name .signal (some s) out (some s)
  | freeze {s s' : Service} {process : ServiceProcess} {pty : Option Pty} :
      s.state.status = .running process pty →
      Update s s' (.frozen process pty) none s.state.automaticRestartAttempts →
      Transition shutdown name .freeze (some s)
        (abortTask .probeAborted s.state.livenessProbe ++ sentEffects process SIGSTOP) (some s')
  | thaw {s s' : Service} {process : ServiceProcess} {pty : Option Pty} {task : AbortHandle} :
      s.state.status = .frozen process pty →
      Update s s' (.running process pty) (probeHandle s.config s.state.livenessProbe task)
        s.state.automaticRestartAttempts →
      Transition shutdown name .thaw (some s)
        (sentEffects process SIGCONT ++ probeEffects s.config task name process) (some s')
  | stopDead {s s' : Service} : isDead s.state.status = true →
      Update s s' s.state.status s.state.livenessProbe s.state.automaticRestartAttempts →
      Transition shutdown name (.terminate .stop) (some s) [] (some s')
  | pruneDead {s : Service} : isDead s.state.status = true →
      Transition shutdown name (.terminate .prune) (some s) s.dropped none
  | restartDead {s s' : Service} {reason : StartReason} {out : List Effect} :
      shutdown = false → isDead s.state.status = true →
      Start name reason s s.state.livenessProbe out s' →
      Transition shutdown name (.terminate (.restart reason)) (some s) out (some s')
  | merge {s s' : Service} {process : ServiceProcess} {afterStop request : AfterStop}
      {pendingKill : Option PendingKill} :
      (request.isRestart = true → shutdown = false) →
      s.state.status = .stopping process afterStop pendingKill →
      Update s s' (.stopping process (afterStop.merge request) pendingKill)
        s.state.livenessProbe s.state.automaticRestartAttempts →
      Transition shutdown name (.terminate request) (some s) [] (some s')
  | terminateFrozen {s s' : Service} {process : ServiceProcess} {pty : Option Pty}
      {request : AfterStop} :
      (request.isRestart = true → shutdown = false) →
      s.state.status = .frozen process pty →
      Update s s' (.stopping process request none) s.state.livenessProbe
        s.state.automaticRestartAttempts →
      Transition shutdown name (.terminate request) (some s) (sentEffects process SIGKILL) (some s')
  | terminateRunning {s s' : Service} {process : ServiceProcess} {pty : Option Pty}
      {request : AfterStop} {pendingKill : Option PendingKill} {kill : List Effect} :
      (request.isRestart = true → shutdown = false) →
      s.state.status = .running process pty →
      Grace name process s.config.gracefulTerminationPeriod pendingKill kill →
      Update s s' (.stopping process request pendingKill) none s.state.automaticRestartAttempts →
      Transition shutdown name (.terminate request) (some s)
        (abortTask .probeAborted s.state.livenessProbe ++ sentEffects process SIGTERM ++ kill)
        (some s')
  | exited {s s' : Service} {process : ServiceProcess} {pty : Option Pty} {status : StdExitStatus} :
      s.state.status = .running process pty ∨ s.state.status = .frozen process pty →
      Update s s' (.exited status) none s.state.automaticRestartAttempts →
      Transition shutdown name (.reap process.mainPid) (some s)
        (.reaped process.mainPid status :: abortTask .probeAborted s.state.livenessProbe) (some s')
  | stopped {s s' : Service} {process : ServiceProcess} {pendingKill : Option PendingKill}
      {status : StdExitStatus} :
      s.state.status = .stopping process .stop pendingKill →
      Update s s' .stopped none s.state.automaticRestartAttempts →
      Transition shutdown name (.reap process.mainPid) (some s)
        (.reaped process.mainPid status ::
          (abortTask .timerAborted (pendingKill.map PendingKill.abortHandle) ++
            abortTask .probeAborted s.state.livenessProbe)) (some s')
  | pruned {s : Service} {process : ServiceProcess} {pendingKill : Option PendingKill}
      {status : StdExitStatus} :
      s.state.status = .stopping process .prune pendingKill →
      Transition shutdown name (.reap process.mainPid) (some s)
        (.reaped process.mainPid status ::
          (abortTask .timerAborted (pendingKill.map PendingKill.abortHandle) ++
            abortTask .probeAborted s.state.livenessProbe ++ s.dropped)) none
  | restarted {s s' : Service} {process : ServiceProcess} {reason : StartReason}
      {pendingKill : Option PendingKill} {status : StdExitStatus} {out : List Effect} :
      shutdown = false →
      s.state.status = .stopping process (.restart reason) pendingKill →
      Start name reason s none out s' →
      Transition shutdown name (.reap process.mainPid) (some s)
        (.reaped process.mainPid status ::
          (abortTask .timerAborted (pendingKill.map PendingKill.abortHandle) ++
            abortTask .probeAborted s.state.livenessProbe) ++ out) (some s')
  /-- A restart refused because of the shutdown: the service keeps a reaped
      process.  No reachable state allows it. -/
  | stranded {s s' : Service} {process : ServiceProcess} {reason : StartReason}
      {pendingKill : Option PendingKill} {status : StdExitStatus} :
      shutdown = true →
      s.state.status = .stopping process (.restart reason) pendingKill →
      s'.state.status = .stopping process (.restart reason) none → s'.config = s.config →
      Transition shutdown name (.reap process.mainPid) (some s)
        (.reaped process.mainPid status ::
          (abortTask .timerAborted (pendingKill.map PendingKill.abortHandle) ++
            abortTask .probeAborted s.state.livenessProbe)) (some s')
  | log {s s' : Service} {line : String} : s' = pushLine s line →
      Transition shutdown name .log (some s) [] (some s')

/-- **A service that is removed** takes its log writer with it. -/
theorem transition_removed {shutdown : Bool} {name : String} {action : Action} {s : Service}
    {out : List Effect} (h : Transition shutdown name action (some s) out none)
    {task : AbortHandle} (htask : s.state.logs.abortHandle = some task) :
    .writerAborted task ∈ out := by
  have hdropped : .writerAborted task ∈ s.dropped := by
    rw [Service.dropped, htask]
    exact List.mem_singleton.mpr rfl
  cases h with
  | pruneDead _ => exact hdropped
  | pruned _ => exact List.mem_cons_of_mem _ (List.mem_append_right _ hdropped)

/-! ## The table of services -/

/-- What an abstract step does: an action on one entry, the reaping of a child
    that is nobody's main process, or the start of the shutdown. -/
inductive Label where
  | act (name : String) (action : Action)
  | foreign (pid : Pid)
  | shutdown
deriving DecidableEq

/-- Write back what a transition leaves of an entry. -/
def write (m : Machine) (name : String) (entry : Option Service) (out : List Effect) : Machine :=
  match entry with
  | some service => m.put name service out
  | none => m.remove name out

/-- Set the shutdown flag. -/
def raiseShutdown (m : Machine) : Machine := { m with mgr := { m.mgr with shutdown := true } }

/-- The steps of the table.  The shutdown flag goes up once every service is
    settled; the code raises it first, which the refinement shows to be the same. -/
inductive Lifecycle : Machine → Label → Machine → Prop where
  | act {m : Machine} {name : String} {action : Action} {out : List Effect}
      {entry : Option Service} :
      Transition m.mgr.shutdown name action (m.get? name) out entry →
      Lifecycle m (.act name action) (write m name entry out)
  | foreign {m : Machine} {pid : Pid} {status : StdExitStatus} :
      (∀ name service process, m.get? name = some service →
        service.state.status.process? = some process → process.mainPid ≠ pid) →
      Lifecycle m (.foreign pid) (m.emit [.reaped pid status])
  | shutdown {m : Machine} : m.mgr.shutdown = false →
      (∀ name service, m.get? name = some service → isSettled service.state.status = true) →
      Lifecycle m .shutdown (raiseShutdown m)

/-- An action on an entry is a transition of this entry, written back. -/
theorem Lifecycle.act_inv {m m' : Machine} {name : String} {action : Action}
    (h : Lifecycle m (.act name action) m') :
    ∃ out entry, Transition m.mgr.shutdown name action (m.get? name) out entry
      ∧ m' = write m name entry out := by
  cases h with
  | act ht => exact ⟨_, _, ht, rfl⟩

end BeamLifecycle
