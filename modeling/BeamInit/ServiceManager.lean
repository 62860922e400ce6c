import BeamInit.SpawnArgs

/-! # The service manager — every operation of `ServiceManager`

    A `Machine` is the manager together with the trace of everything done so
    far.  An operation takes the answers of the system, returns what the source
    returns, and may panic; `?` on a `Result` is a `match` whose error branch
    leaves the machine as it is at that point. -/

namespace BeamManager

open BeamApi BeamOs BeamLogs BeamPublisher BeamService BeamSpawnArgs

structure ServiceManager where
  services : BTreeMap String Service
  userEnvFiles : List String
  logRetentionLines : NonZeroUsize
  /-- The cancellation token: has shutdown been initiated? -/
  shutdown : Bool
deriving DecidableEq

structure Machine where
  mgr : ServiceManager
  trace : List Effect
deriving DecidableEq

/-- What an operation of the manager leaves behind: its result and the machine. -/
abbrev Outcome (α : Type) := α × Machine

namespace Machine

/-- `services.get(name)`. -/
abbrev get? (m : Machine) (name : String) : Option Service := m.mgr.services[name]?

def emit (m : Machine) (out : List Effect) : Machine := { m with trace := m.trace ++ out }

/-- Write a service back to its entry. -/
def put (m : Machine) (name : String) (service : Service) (out : List Effect) : Machine where
  mgr := { m.mgr with services := m.mgr.services.insert name service }
  trace := m.trace ++ out

def remove (m : Machine) (name : String) (out : List Effect) : Machine where
  mgr := { m.mgr with services := m.mgr.services.erase name }
  trace := m.trace ++ out

end Machine

/-! ## Looking up -/

def getService (m : Machine) (credentials : Credentials) (name : String) :
    Except ServiceError Service :=
  match m.get? name with
  | none => .error (.serviceNotFound name)
  | some service =>
      match service.checkCredentials credentials with
      | .error e => .error e
      | .ok () => .ok service

def getServiceMut (m : Machine) (credentials : Credentials) (name : String) :
    Except ServiceError Service :=
  if name = bootstrapName then .error .bootstrapIsProtected
  else
    match m.get? name with
    | none => .error (.serviceNotFound name)
    | some service =>
        match service.checkCredentials credentials with
        | .error e => .error e
        | .ok () => .ok service

/-- A lookup finds the service of this name if the credentials may use it. -/
theorem getService_iff {m : Machine} {credentials : Credentials} {name : String} {s : Service} :
    getService m credentials name = .ok s
      ↔ m.get? name = some s ∧ s.checkCredentials credentials = .ok () := by
  rw [getService]
  cases hget : m.get? name with
  | none => exact ⟨(nomatch ·), (nomatch ·.1)⟩
  | some t =>
      cases hcred : t.checkCredentials credentials with
      | error e =>
          dsimp only
          rw [hcred]
          refine ⟨(nomatch ·), fun h => ?_⟩
          rw [← Option.some.inj h.1, hcred] at h
          exact nomatch h.2
      | ok u =>
          dsimp only
          rw [hcred]
          refine ⟨fun h => ?_, fun h => congrArg Except.ok (Option.some.inj h.1)⟩
          rw [← Except.ok.inj h]
          exact ⟨rfl, hcred⟩

/-- The same checks, after refusing the bootstrap service to everyone. -/
theorem getServiceMut_eq {m : Machine} {credentials : Credentials} {name : String} :
    getServiceMut m credentials name
      = if name = bootstrapName then .error .bootstrapIsProtected
        else getService m credentials name := rfl

/-- The mutable lookup finds the same, except for the bootstrap service. -/
theorem getServiceMut_iff {m : Machine} {credentials : Credentials} {name : String} {s : Service} :
    getServiceMut m credentials name = .ok s
      ↔ name ≠ bootstrapName ∧ m.get? name = some s
        ∧ s.checkCredentials credentials = .ok () := by
  rw [getServiceMut_eq]
  by_cases h : name = bootstrapName
  · rw [if_pos h]
    exact ⟨(nomatch ·), fun hne => absurd h hne.1⟩
  · rw [if_neg h, getService_iff]
    exact ⟨fun hs => ⟨h, hs⟩, fun hs => hs.2⟩

/-! ## Creating and starting -/

def createService (m : Machine) (name : String) (config : ServiceConfig) :
    Outcome (Except ServiceError Unit) :=
  if m.mgr.shutdown then (.error .shuttingDown, m)
  else if name = "" then (.error (.invalidRequest "Service name may not be empty"), m)
  else if name.utf8ByteSize > 255 then
    (.error (.invalidRequest "Service name may not be longer than 255 bytes"), m)
  else
    match config.validate with
    | .error e => (.error e, m)
    | .ok () =>
        match m.get? name with
        | some _ => (.error (.serviceExists name), m)
        | none =>
            (.ok (), m.put name
              { config
                state := {
                  status := .stopped
                  logs := Logs.new m.mgr.logRetentionLines
                  automaticRestartAttempts := 0
                  livenessProbe := none
                  serviceStatusPublisher := .new .stopped } } [])

/-- `u32::MAX`. -/
def u32Max : Nat := 2 ^ 32 - 1

/-- The restart counter `start_service` sets. -/
def restartAttempts (reason : StartReason) (attempts : Nat) : Nat :=
  match reason with
  | .user => 0
  | .automatic => min (attempts + 1) u32Max

/-- The end of `start_service`: spawn into the given sink and record the outcome. -/
def spawnInto (os : StartOutcome) (name : String) (service : Service) (pty : Option Pty) :
    Except Panic (Except ServiceError Unit × Service × List Effect) :=
  match spawnService os service.config pty.isSome with
  | .ok process => do
      let service ← service.setStatus (.running process pty)
      let (service, out) := service.spawnLivenessProbe os.probe name
      return (.ok (), service, .spawned name process :: out)
  | .error err => do
      let service ← service.setStatus (.error err)
      return (.error (.spawnFailed service.config.cmd err.text), service, [.spawnFailed name err])

/-- `start_service` on the entry it looked up. -/
def startEntry (os : StartOutcome) (name : String) (reason : StartReason) (service : Service) :
    Except Panic (Except ServiceError Unit × Service × List Effect) :=
  let service := { service with state := { service.state with
    automaticRestartAttempts := restartAttempts reason service.state.automaticRestartAttempts } }
  match (if service.config.pty then some os.pty else none) with
  | some (.error err) => do
      let service ← service.setStatus (.error err)
      return (.error (.spawnFailed service.config.cmd err.text), service, [.starting name reason])
  | some (.ok pty) => do
      let line := s!"[process connected to pty: {pty.path}]"
      let (result, service, out) ← spawnInto os name service (some pty)
      return (result, service, [.starting name reason, .logMessage name line] ++ out)
  | none => do
      let (logs, old, new) ←
        expect "failed to create log writer" (service.state.logs.newWriter os.writer)
      let service := { service with state := { service.state with logs := logs } }
      let sink := abortTask .writerAborted old ++ [.writerSpawned new name]
      let (result, service, out) ← spawnInto os name service none
      return (result, service, .starting name reason :: sink ++ out)

def startService (os : StartOutcome) (m : Machine) (credentials : Credentials) (name : String)
    (reason : StartReason) : Except Panic (Outcome (Except ServiceError Unit)) :=
  if m.mgr.shutdown then .ok (.error .shuttingDown, m)
  else
    match m.get? name with
    | none => .ok (.error (.serviceNotFound name), m)
    | some service =>
        match service.checkCredentials credentials with
        | .error e => .ok (.error e, m)
        | .ok () => do
            let (result, service, out) ← startEntry os name reason service
            return (result, m.put name service out)

/-! ## Freezing and thawing -/

def freezeEntry (os : Os) (service : Service) : Except Panic (Service × List Effect) :=
  let status := service.state.status
  let service := service.replaceStatus .dummy
  match status with
  -- No process to freeze, or already frozen.
  | .stopped | .stopping .. | .exited _ | .error _ | .frozen .. => do
      return (← service.setStatus status, [])
  | .running process pty => do
      let (service, out) := service.abortLivenessProbe
      let sent ← process.sendSignal os SIGSTOP
      return (← service.setStatus (.frozen process pty), out ++ sent)
  | .dummy => .error .unreachable

def freezeService (os : Os) (m : Machine) (credentials : Credentials) (name : String) :
    Except Panic (Outcome (Except ServiceError Unit)) :=
  match getServiceMut m credentials name with
  | .error e => .ok (.error e, m)
  | .ok service => do
      let (service, out) ← freezeEntry os service
      return (.ok (), m.put name service out)

def thawEntry (os : Os) (name : String) (service : Service) : Except Panic (Service × List Effect) :=
  let status := service.state.status
  let service := service.replaceStatus .dummy
  match status with
  -- No process to thaw, or already running.
  | .stopped | .stopping .. | .exited _ | .error _ | .running .. => do
      return (← service.setStatus status, [])
  | .frozen process pty => do
      let sent ← process.sendSignal os SIGCONT
      let service ← service.setStatus (.running process pty)
      let (service, out) := service.spawnLivenessProbe os.start.probe name
      return (service, sent ++ out)
  | .dummy => .error .unreachable

def thawService (os : Os) (m : Machine) (credentials : Credentials) (name : String) :
    Except Panic (Outcome (Except ServiceError Unit)) :=
  match getServiceMut m credentials name with
  | .error e => .ok (.error e, m)
  | .ok service => do
      let (service, out) ← thawEntry os name service
      return (.ok (), m.put name service out)

/-! ## Terminating -/

/-- The grace period of a `Running` service: kill at once, or leave a timer behind. -/
def graceKill (os : Os) (name : String) (process : ServiceProcess) (period : Nat) :
    Except Panic (Option PendingKill × List Effect) :=
  if period = 0 then do
    let sent ← process.sendSignal os SIGKILL
    return (none, sent)
  else
    return (some ⟨os.token name, os.timer name⟩,
      [.timerSpawned (os.timer name) name (os.token name) process period])

/-- The arm of a service without a process; `service` is its entry with the
    placeholder in place of `status`. -/
def terminateDead (os : Os) (m : Machine) (credentials : Credentials) (name : String)
    (requested : AfterStop) (status : ServiceStatus) (service : Service) :
    Except Panic (Outcome (Except ServiceError Unit)) :=
  match requested with
  | .stop => do
      let service ← service.setStatus status
      return (.ok (), m.put name service [])
  | .prune => return (.ok (), m.remove name service.dropped)
  | .restart reason => startService os.start (m.put name service []) credentials name reason

def terminateServiceInner (os : Os) (m : Machine) (credentials : Credentials) (name : String)
    (requested : AfterStop) : Except Panic (Outcome (Except ServiceError Unit)) :=
  match m.get? name with
  | none => .ok (.error (.serviceNotFound name), m)
  | some service =>
      let status := service.state.status
      let service := service.replaceStatus .dummy
      match status with
      | .stopped | .exited _ | .error _ =>
          terminateDead os m credentials name requested status service
      | .stopping process afterStop pendingKill => do
          let service ← service.setStatus (.stopping process (afterStop.merge requested) pendingKill)
          return (.ok (), m.put name service [])
      | .frozen process _ => do
          let sent ← process.sendSignal os SIGKILL
          let service ← service.setStatus (.stopping process requested none)
          return (.ok (), m.put name service sent)
      | .running process _ => do
          let (service, out) := service.abortLivenessProbe
          let sent ← process.sendSignal os SIGTERM
          let (pendingKill, kill) ← graceKill os name process service.config.gracefulTerminationPeriod
          let service ← service.setStatus (.stopping process requested pendingKill)
          return (.ok (), m.put name service (out ++ sent ++ kill))
      | .dummy => .error .unreachable

def terminateService (os : Os) (m : Machine) (credentials : Credentials) (name : String)
    (intent : AfterStop) : Except Panic (Outcome (Except ServiceError Unit)) :=
  match getServiceMut m credentials name with
  | .error e => .ok (.error e, m)
  | .ok _ =>
      if m.mgr.shutdown ∧ intent.isRestart then .ok (.error .shuttingDown, m)
      else terminateServiceInner os m credentials name intent

def forceKillService (os : Os) (m : Machine) (name : String) (token : TerminationToken) :
    Except Panic (Outcome Unit) :=
  match m.get? name with
  | none => .ok ((), m)
  | some service =>
      match service.state.status with
      | .stopping process _ (some kill) =>
          if kill.token = token then do
            let sent ← process.sendSignal os SIGKILL
            return ((), m.emit sent)
          else .ok ((), m)
      | _ => .ok ((), m)

/-! ## Reading -/

def listServices (m : Machine) (credentials : Credentials) : List (String × ServiceStatus) :=
  (m.mgr.services.toList.filter
    (fun entry => (entry.2.checkCredentials credentials).toOption.isSome)).map
    (fun entry => (entry.1, entry.2.state.status))

/-- `get_pty`: the device whose master descriptor is handed out. -/
def getPty (os : Os) (m : Machine) (credentials : Credentials) (name : String) :
    Except Panic (Except ServiceError Pty) :=
  match getService m credentials name with
  | .error e => .ok (.error e)
  | .ok service =>
      match service.state.status with
      | .running _ (some pty) | .frozen _ (some pty) =>
          match os.dup with
          | none => .ok (.ok pty)
          | some e =>
              if e.rawOsError = some EMFILE then .ok (.error .tooManyOpenFiles)
              else .error (.panic s!"Failed to dup PTY fd: {e.text}")
      | .running _ none | .frozen _ none => .ok (.error (.noPty name))
      | .stopped | .stopping .. | .exited _ | .error _ => .ok (.error (.noPty name))
      | .dummy => .error .unreachable

def copyLogs (m : Machine) (credentials : Credentials) (name : String) :
    Except ServiceError (List String) :=
  match getService m credentials name with
  | .error e => .error e
  | .ok service => .ok service.state.logs.copyLogs

/-- `log_reader`: a stream over the queue, from position 0. -/
def logReader (m : Machine) (credentials : Credentials) (name : String) :
    Except ServiceError RingBuffer :=
  match getService m credentials name with
  | .error e => .error e
  | .ok service => .ok service.state.logs.queue

def subscribe (m : Machine) (credentials : Credentials) (name : String) :
    Except ServiceError ServiceStatusSubscription :=
  match getService m credentials name with
  | .error e => .error e
  | .ok service => .ok service.state.serviceStatusPublisher.subscribe

/-! ## Signals and PTY notifications -/

/-- `notify_pty_attached` and `notify_pty_detached` differ in the command only. -/
def notifyPty (cmd : MonitorCommand) (os : Os) (m : Machine) (credentials : Credentials)
    (name : String) : Except Panic (Outcome (Except ServiceError Unit)) :=
  match getServiceMut m credentials name with
  | .error e => .ok (.error e, m)
  | .ok service =>
      match service.state.status with
      | .running process _ | .frozen process _ =>
          match process.monitorTx with
          | some tx => do
              let () ← expect "failed to send command on monitor pipe" (← tx.send os cmd)
              return (.ok (), m.emit [.monitor process cmd])
          | none => .ok (.ok (), m)
      -- Nothing to do
      | .stopped | .stopping .. | .exited _ | .error _ => .ok (.ok (), m)
      | .dummy => .error .unreachable

def notifyPtyAttached := notifyPty .foreground

def notifyPtyDetached := notifyPty .background

def sendSignal (os : Os) (m : Machine) (credentials : Credentials) (name : String) (sig : Int) :
    Except Panic (Outcome (Except ServiceError Unit)) :=
  match getServiceMut m credentials name with
  | .error e => .ok (.error e, m)
  | .ok service =>
      if sig ≤ 0 ∨ sig ≥ 32 then
        .ok (.error (.invalidRequest s!"Signal {sig} is not valid"), m)
      else
        match service.state.status with
        | .running process _ | .frozen process _ | .stopping process _ _ => do
            let sent ← process.sendSignal os sig
            return (.ok (), m.emit sent)
        -- Nothing to do
        | .stopped | .exited _ | .error _ => .ok (.ok (), m)
        | .dummy => .error .unreachable

/-! ## Shutdown -/

/-- `stop_all_services`; an error is only printed. -/
def stopAllServices (os : Os) (m : Machine) : Except Panic Machine :=
  m.mgr.services.keys.foldlM (fun m name => do
    let (_, m) ← terminateServiceInner os m .root name .stop
    return m) m

def beginShutdown (os : Os) (m : Machine) : Except Panic Machine :=
  if m.mgr.shutdown then .ok m
  else stopAllServices os { m with mgr := { m.mgr with shutdown := true } }

def shutdownInitiated (m : Machine) : Bool := m.mgr.shutdown

def shutdownComplete (m : Machine) : Bool :=
  shutdownInitiated m &&
    m.mgr.services.toList.all (fun entry =>
      entry.2.state.status matches .stopped | .exited _ | .error _)

/-! ## SIGCHLD -/

/-- Does this status belong to the child `pid`? -/
def isMain (status : ServiceStatus) (pid : Pid) : Bool :=
  match status.process? with
  | some process => process.mainPid == pid
  | none => false

/-- The body of the `waitpid` loop for one reaped child.  The inner loop stops
    at the first service that holds the child. -/
def reapChild (reap : Reap) (m : Machine) : Except Panic Machine :=
  let m := m.emit [.reaped reap.pid reap.status]
  match m.mgr.services.toList.find? (fun entry => isMain entry.2.state.status reap.pid) with
  | none => .ok m
  | some (name, service) =>
      match service.state.status with
      | .running .. | .frozen .. => do
          let service ← service.setStatus (.exited reap.status)
          let (service, out) := service.abortLivenessProbe
          return m.put name service out
      | .stopping process afterStop pendingKill => do
          -- `pending_kill.take()`
          let service := service.replaceStatus (.stopping process afterStop none)
          let timer := abortTask .timerAborted (pendingKill.map PendingKill.abortHandle)
          let (service, out) := service.abortLivenessProbe
          let out := timer ++ out
          match afterStop with
          | .stop => do
              let service ← service.setStatus .stopped
              return m.put name service out
          | .prune =>
              match m.get? name with
              | some removed => return m.remove name (out ++ removed.dropped)
              | none => .error (.expect "service should exist")
          | .restart reason => do
              -- the result is ignored: `start_service` has set the status
              let (_, m) ← startService reap.start (m.put name service out)
                service.config.credentials name reason
              return m
      | .stopped | .exited _ | .error _ | .dummy => .ok m

/-- The `waitpid` loop: the children that are there, then `None` or an error. -/
def waitChildren (os : Os) (m : Machine) : Except Panic Machine := do
  let m ← os.reaped.foldlM (fun m reap => reapChild reap m) m
  match os.waitError with
  | none => .ok m
  | some e =>
      -- ECHILD: no more zombies to wait for
      if e.rawOsError = some ECHILD then .ok m
      else .error (.panic s!"waitpid failed with {e.text}")

def handleSignal (os : Os) (m : Machine) (signo : Int) : Except Panic Machine := do
  let m ← (if signo = SIGCHLD then waitChildren os m else .ok m)
  if signo = SIGTERM ∨ signo = SIGINT then beginShutdown os m else .ok m

end BeamManager
