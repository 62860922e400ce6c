import BeamInit.Logs
import BeamInit.StatusPublisher

/-! # Services — configuration, runtime state and the spawn boundary

    The types of `services.rs` below the manager, with the methods that work on
    a single service.  Everything done to the outside world is recorded as an
    `Effect`, in the order it is done; a panic ends the event. -/

namespace BeamService

open BeamApi BeamOs BeamLogs BeamPublisher

/-! ## Errors -/

inductive ServiceError where
  | noPty (name : String)
  | serviceNotFound (name : String)
  | serviceExists (name : String)
  | spawnFailed (cmd : String) (err : String)
  | invalidCredentials
  | invalidRequest (err : String)
  | buildEnvironment (err : String)
  | bootstrapIsProtected
  | servicePrunedWhileWaiting
  | observationLagged (skipped : Nat)
  | shuttingDown
  | tooManyOpenFiles
deriving DecidableEq

/-- `impl IntoResponse for ServiceError`: the status code and the body. -/
def ServiceError.intoResponse : ServiceError → Nat × String
  | .noPty name => (404, s!"Service {name} has no PTY")
  | .serviceNotFound name => (404, s!"Service {name} was not found")
  | .serviceExists name => (409, s!"Service named `{name}` already exists")
  | .spawnFailed cmd err => (400, s!"Failed to spawn {cmd}: {err}")
  | .invalidCredentials => (401, "Service owned by a different user")
  | .invalidRequest err => (400, err)
  | .buildEnvironment err => (500, err)
  | .bootstrapIsProtected => (403, "The \"bootstrap\" service cannot be modified")
  | .servicePrunedWhileWaiting => (410, "Service was pruned before condition was met")
  | .observationLagged skipped =>
      (409, s!"Unable to determine if requested state occurred: missed {skipped} service status updates")
  | .shuttingDown => (503, "beam-init is shutting down")
  | .tooManyOpenFiles => (500, "Too many open files")

/-! ## Configuration -/

structure Credentials where
  uid : Nat
  gid : Nat
deriving DecidableEq

def Credentials.root : Credentials := ⟨0, 0⟩

/-- The configuration of a service. -/
structure ServiceConfig where
  cmd : String
  args : List String
  env : BTreeMap OsString OsString
  labels : BTreeMap String String
  liveness : Option Probe
  pty : Bool
  credentials : Credentials
  gracefulTerminationPeriod : Nat
deriving DecidableEq

/-- The checks of `validate` on one environment entry; 61 is `=`. -/
def validateEntry (entry : OsString × OsString) : Except ServiceError Unit :=
  if entry.1 = [] then
    .error (.invalidRequest "environment keys may not be empty")
  else if 61 ∈ entry.1 then
    .error (.invalidRequest "environment keys may not contain '='")
  else if 0 ∈ entry.1 ∨ 0 ∈ entry.2 then
    .error (.invalidRequest "environment key/value may not contain NUL")
  else .ok ()

def ServiceConfig.validate (config : ServiceConfig) : Except ServiceError Unit :=
  config.env.toList.forM validateEntry

/-! ## Intents -/

inductive StartReason where
  /-- The user requested that this service be (re)started. -/
  | user
  /-- Beam-init requested that this service be (re)started. -/
  | automatic
deriving DecidableEq

inductive AfterStop where
  | stop
  | prune
  | restart (reason : StartReason)
deriving DecidableEq

def AfterStop.merge (self requested : AfterStop) : AfterStop :=
  match self, requested with
  -- Once pruning has been requested, preserve it.
  | .prune, _ => .prune
  | _, .prune => .prune
  -- An automatic restart must not override an existing user action.
  | current, .restart .automatic => current
  -- Explicit stop, shutdown and user restart replace the current outcome.
  | _, requested => requested

/-- `matches!(intent, AfterStop::Restart(_))`. -/
def AfterStop.isRestart (intent : AfterStop) : Bool := intent matches .restart _

/-! ## Runtime state -/

/-- The main process of a running service.  `run` is the ghost number of the
    spawn that made it. -/
structure ServiceProcess where
  mainPid : Pid
  monitorTx : Option MonitorCommandSender
  run : Nat
deriving DecidableEq

structure PendingKill where
  token : TerminationToken
  abortHandle : AbortHandle
deriving DecidableEq

inductive ServiceStatus where
  | stopped
  | running (process : ServiceProcess) (pty : Option Pty)
  | frozen (process : ServiceProcess) (pty : Option Pty)
  | stopping (process : ServiceProcess) (afterStop : AfterStop) (pendingKill : Option PendingKill)
  | exited (status : StdExitStatus)
  | error (err : IoError)
  /-- Temporarily used inside commands that need to change the status. -/
  | dummy
deriving DecidableEq

/-- `impl From<&ServiceStatus> for beam_init_api::ServiceStatus`. -/
def ServiceStatus.toApi : ServiceStatus → Except Panic ApiServiceStatus
  | .stopped => .ok .stopped
  | .running process pty => .ok (.running process.mainPid (pty.map Pty.path))
  | .frozen process pty => .ok (.frozen process.mainPid (pty.map Pty.path))
  | .stopping process afterStop _ =>
      .ok (.stopping process.mainPid (afterStop matches .prune) afterStop.isRestart)
  | .exited status => do return .exited (← status.toApi)
  | .error err => .ok (.error err.text)
  | .dummy => .error .unreachable

/-- The runtime state of a service. -/
structure ServiceState where
  status : ServiceStatus
  logs : Logs
  automaticRestartAttempts : Nat
  livenessProbe : Option AbortHandle
  serviceStatusPublisher : ServiceStatusPublisher
deriving DecidableEq

structure Service where
  config : ServiceConfig
  state : ServiceState
deriving DecidableEq

/-- The process a status holds on to. -/
def ServiceStatus.process? : ServiceStatus → Option ServiceProcess
  | .running process _ => some process
  | .frozen process _ => some process
  | .stopping process _ _ => some process
  | _ => none

/-! ## What is done to the outside world -/

inductive Effect where
  /-- `start_service` got past its checks: "Starting service ...". -/
  | starting (name : String) (reason : StartReason)
  /-- `spawn_service` returned a process. -/
  | spawned (name : String) (process : ServiceProcess)
  /-- `spawn_service` returned an error. -/
  | spawnFailed (name : String) (err : IoError)
  /-- `waitpid` returned this child. -/
  | reaped (pid : Pid) (status : StdExitStatus)
  /-- `kill_process_group` on the main process. -/
  | kill (process : ServiceProcess) (sig : Int)
  /-- A command sent to the monitor of the process. -/
  | monitor (process : ServiceProcess) (cmd : MonitorCommand)
  /-- A liveness probe task, with the process it is to watch. -/
  | probeSpawned (task : AbortHandle) (name : String) (watched : Option ServiceProcess)
  | probeAborted (task : AbortHandle)
  /-- A grace timer that will ask to force-kill `name` with `token`. -/
  | timerSpawned (task : AbortHandle) (name : String) (token : TerminationToken)
      (process : ServiceProcess) (period : Nat)
  | timerAborted (task : AbortHandle)
  | writerSpawned (task : AbortHandle) (name : String)
  | writerAborted (task : AbortHandle)
  /-- A task that pushes one line to the logs of `name`. -/
  | logMessage (name : String) (line : String)
deriving DecidableEq

/-- `Option::take` on an abort handle, followed by `abort`. -/
def abortTask (effect : AbortHandle → Effect) : Option AbortHandle → List Effect
  | some handle => [effect handle]
  | none => []

/-- `ServiceProcess::send_signal`. -/
def ServiceProcess.sendSignal (os : Os) (process : ServiceProcess) (signal : Int) :
    Except Panic (List Effect) :=
  match process.monitorTx with
  | some tx => do
      let () ← expect "failed to send command on monitor pipe" (← tx.send os (.signal signal))
      return [.monitor process (.signal signal)]
  | none => do
      let () ← expect "process to exist" (← killProcessGroup os process.mainPid signal)
      return [.kill process signal]

namespace Service

def checkCredentials (self : Service) (credentials : Credentials) : Except ServiceError Unit :=
  if credentials.uid ≠ 0 ∧ credentials.uid ≠ self.config.credentials.uid then
    .error .invalidCredentials
  else .ok ()

/-- The check lets root and the owner of the service through, and nobody else. -/
theorem checkCredentials_iff {self : Service} {credentials : Credentials} :
    self.checkCredentials credentials = .ok ()
      ↔ credentials.uid = 0 ∨ credentials.uid = self.config.credentials.uid := by
  rw [checkCredentials]
  by_cases h : credentials.uid ≠ 0 ∧ credentials.uid ≠ self.config.credentials.uid
  · rw [if_pos h]
    exact ⟨nofun, fun hor => absurd hor (not_or.mpr h)⟩
  · rw [if_neg h]
    exact ⟨fun _ => by omega, fun _ => rfl⟩

/-- `mem::replace(&mut service.state.status, status)`, without publishing. -/
def replaceStatus (self : Service) (status : ServiceStatus) : Service :=
  { self with state := { self.state with status := status } }

def setStatus (self : Service) (status : ServiceStatus) : Except Panic Service := do
  let api ← status.toApi
  return { self with state := { self.state with
    serviceStatusPublisher := self.state.serviceStatusPublisher.publish api
    status := status } }

/-- Stop the liveness probe task for a service. -/
def abortLivenessProbe (self : Service) : Service × List Effect :=
  ({ self with state := { self.state with livenessProbe := none } },
    abortTask .probeAborted self.state.livenessProbe)

/-- What dropping a service does: `Drop for Logs` aborts the log writer. -/
def dropped (self : Service) : List Effect := abortTask .writerAborted self.state.logs.abortHandle

/-- (Re)start the liveness probe task for a service. -/
def spawnLivenessProbe (self : Service) (task : AbortHandle) (name : String) :
    Service × List Effect :=
  match self.config.liveness with
  | none => (self, [])
  | some _ =>
      ({ self with state := { self.state with livenessProbe := some task } },
        [.probeSpawned task name self.state.status.process?])

end Service

end BeamService
