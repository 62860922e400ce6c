import BeamInit.Commands
import BeamInit.Runs

/-! # The main loop — events, replies and runs

    One iteration takes an event off the channel, handles it and then decides
    whether the process goes on.  A run is any sequence of events, each handled
    with answers of the system that respect the one assumption about pids, and
    of log lines pushed by the tasks that write to a service's queue. -/

namespace BeamMainLoop

open BeamApi BeamOs BeamLogs BeamPublisher BeamService BeamManager BeamCommands Runs

inductive Event where
  | command (command : Command) (credentials : Credentials)
  | getPty (name : String) (credentials : Credentials)
  | signal (signo : Int)
  | probeFailed (name : String)
  | waitService (name : String) (credentials : Credentials)
deriving DecidableEq

/-- What is sent back on the event's reply channel. -/
inductive Reply where
  | response (result : Except ServiceError Response)
  | pty (result : Except ServiceError Pty)
  | subscription (result : Except ServiceError ServiceStatusSubscription)
  | silent
deriving DecidableEq

/-- `char::escape_debug` inside a string: what is above ASCII is a question of the
    Unicode tables. -/
def escapeDebug (unicode : Unicode) (c : Char) : String :=
  if c = '"' then "\\\"" else if c = '\\' then "\\\\" else if c = '\n' then "\\n"
  else if c = '\t' then "\\t" else if c = '\r' then "\\r" else if c.toNat = 0 then "\\0"
  else if 32 ≤ c.toNat ∧ c.toNat < 127 then c.toString
  else if unicode.isPrintable c ∧ ¬ unicode.isGraphemeExtended c then c.toString
  else "\\u\x7b" ++ String.ofList (Nat.toDigits 16 c.toNat) ++ "\x7d"

/-- The `{:?}` form of a string. -/
def debugString (unicode : Unicode) (s : String) : String :=
  "\"" ++ String.join (s.toList.map (escapeDebug unicode)) ++ "\""

/-- `impl Debug for ServiceError`, derived. -/
def debugError (unicode : Unicode) : ServiceError → String
  | .noPty name => "NoPty \x7b name: " ++ debugString unicode name ++ " \x7d"
  | .serviceNotFound name => "ServiceNotFound \x7b name: " ++ debugString unicode name ++ " \x7d"
  | .serviceExists name => "ServiceExists \x7b name: " ++ debugString unicode name ++ " \x7d"
  | .spawnFailed cmd err =>
      "SpawnFailed \x7b cmd: " ++ debugString unicode cmd ++ ", err: "
        ++ debugString unicode err ++ " \x7d"
  | .invalidCredentials => "InvalidCredentials"
  | .invalidRequest err => "InvalidRequest \x7b err: " ++ debugString unicode err ++ " \x7d"
  | .buildEnvironment err => "BuildEnvironment \x7b err: " ++ debugString unicode err ++ " \x7d"
  | .bootstrapIsProtected => "BootstrapIsProtected"
  | .servicePrunedWhileWaiting => "ServicePrunedWhileWaiting"
  | .observationLagged skipped => s!"ObservationLagged \x7b skipped: {skipped} \x7d"
  | .shuttingDown => "ShuttingDown"
  | .tooManyOpenFiles => "TooManyOpenFiles"

/-- `service.state.logs.queue.push(line)`. -/
def pushLine (service : Service) (line : String) : Service :=
  { service with state := { service.state with logs := service.state.logs.push line } }

/-- The arm of a probe failure: an automatic restart with root's credentials; a
    failure to restart goes to the service's own log. -/
def handleProbeFailed (os : Os) (m : Machine) (name : String) : Except Panic Machine := do
  let (result, m) ← stopServiceCmd os m .root name (.restart .automatic)
  match result with
  | .ok () => return m
  | .error e =>
      match getService m .root name with
      | .ok service =>
          return m.put name
            (pushLine service
              ("[failed to automatically restart: " ++ debugError os.unicode e ++ "]")) []
      | .error _ => return m

def handleEvent (os : Os) (m : Machine) (event : Event) : Except Panic (Outcome Reply) :=
  match event with
  | .signal signo => do
      return (.silent, ← handleSignal os m signo)
  | .command cmd credentials => do
      let (result, m) ← handleApiCommand os m cmd credentials
      return (.response result, m)
  | .getPty name credentials => do
      return (.pty (← getPty os m credentials name), m)
  | .probeFailed name => do
      return (.silent, ← handleProbeFailed os m name)
  | .waitService name credentials => .ok (.subscription (subscribe m credentials name), m)

/-- What the loop does after an event. -/
inductive LoopExit where
  | next
  | leave
  | exit (code : Int)
  | exitWithSignal (signal : Int)
deriving DecidableEq

def afterEvent (m : Machine) : LoopExit :=
  if shutdownComplete m then .leave
  else if shutdownInitiated m then .next
  else
    match getService m .root bootstrapName with
    | .error _ => .next
    | .ok service =>
        match service.state.status with
        | .exited status =>
            match status.code with
            | some code => .exit code
            | none =>
                match status.signal with
                | some signal => .exitWithSignal signal
                | none => .exit 1
        | .stopped => .exit 0
        | _ => .next

/-! ## Runs -/

/-- The manager as `ServiceManager::new` makes it. -/
def newMachine (userEnvFiles : List String) (logRetentionLines : NonZeroUsize) : Machine where
  mgr := { services := ∅, userEnvFiles, logRetentionLines, shutdown := false }
  trace := []

/-- One effect changes the children that were spawned and not yet reaped. -/
def trackChild (children : List ServiceProcess) : Effect → List ServiceProcess
  | .spawned _ process => process :: children
  | .reaped pid _ => children.filter (fun process => process.mainPid ≠ pid)
  | _ => children

/-- The main processes that a spawn returned and `waitpid` has not. -/
def unreaped (trace : List Effect) : List ServiceProcess := trace.foldl trackChild []

def spawnedProcess : Effect → Option ServiceProcess
  | .spawned _ process => some process
  | _ => none

/-- A spawn after the effects `pre`: the pid is above 1 and no unreaped child has
    it; the ghost `run` number is new. -/
def FreshAt (pre : List Effect) (e : Effect) : Prop :=
  ∀ process ∈ spawnedProcess e,
    1 < process.mainPid
      ∧ (∀ child ∈ unreaped pre, child.mainPid ≠ process.mainPid)
      ∧ (∀ old ∈ pre.filterMap spawnedProcess, old.run ≠ process.run)

/-- The assumption about pids, for every spawn of a trace. -/
def SpawnsFresh (trace : List Effect) : Prop :=
  ∀ pre e post, trace = pre ++ e :: post → FreshAt pre e

instance (pre : List Effect) (e : Effect) : Decidable (FreshAt pre e) :=
  inferInstanceAs (Decidable (∀ process ∈ spawnedProcess e, _))

/-- Freshness of a trace is a question of each of its places, so it can be decided. -/
theorem spawnsFresh_iff (trace : List Effect) :
    SpawnsFresh trace ↔ ∀ i : Fin trace.length, FreshAt (trace.take i) (trace.get i) := by
  constructor
  · intro h i
    refine h _ _ (trace.drop (i + 1)) ?_
    rw [List.get_eq_getElem, ← List.drop_eq_getElem_cons, List.take_append_drop]
  · rintro h pre e post rfl
    have hi : pre.length < (pre ++ e :: post).length := by
      rw [List.length_append, List.length_cons]
      omega
    have := h ⟨pre.length, hi⟩
    simpa using this

instance (trace : List Effect) : Decidable (SpawnsFresh trace) :=
  decidable_of_iff _ (spawnsFresh_iff trace).symm

inductive Move where
  | handled (os : Os) (event : Event) (reply : Reply)
  /-- A task pushes a line to the log of a service. -/
  | logged (name : String) (line : String)

inductive Step : Machine → Move → Machine → Prop where
  | handled {m m' : Machine} {os : Os} {event : Event} {reply : Reply} :
      handleEvent os m event = .ok (reply, m') → SpawnsFresh m'.trace →
      Step m (.handled os event reply) m'
  | logged {m : Machine} {name line : String} {service : Service} :
      m.get? name = some service →
      Step m (.logged name line) (m.put name (pushLine service line) [])

/-- The states between two events, from the empty map on. -/
def Reachable (m : Machine) : Prop :=
  ∃ files lines moves, Run Step (newMachine files lines) moves m

/-! ## Executing the loop -/

/-- A system where every call succeeds, `pid` is the next child and `children`
    have exited. -/
def steadyOs (pid : Pid) (run : Nat) (children : List Reap) : Os where
  kill _ _ := none
  monitorWrite _ _ := none
  monitorRead _ _ := none
  dup := none
  start := ⟨.ok ⟨"/dev/pts/0"⟩, .ok run, .ok (pid, run), run⟩
  reaped := children
  waitError := none
  token _ := ⟨run⟩
  timer _ := run
  varsOs := ∅
  buildEnvironment _ _ := .ok ∅
  unicode := ⟨fun _ => false, fun c => 127 < c.toNat⟩

/-- The main loop over a finite supply of events. -/
def runLoop (m : Machine) (events : List (Os × Event)) : Except Panic Machine :=
  events.foldlM (fun m e => (·.2) <$> handleEvent e.1 m e.2) m

end BeamMainLoop
