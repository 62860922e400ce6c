import BeamInit.ServiceManager

/-! # API commands — `handle_api_command`

    The commands of the API and what the manager does with them.  A response
    body is kept as the value that is serialised. -/

namespace BeamCommands

open BeamApi BeamOs BeamLogs BeamService BeamManager

inductive Command where
  | createService (name : String) (service : CreateService)
  | restartService (name : String)
  | stopService (name : String) (prune : Bool)
  | freezeService (name : String)
  | thawService (name : String)
  | showService (name : String)
  | listServices
  | serviceLogs (name : String) (follow : Bool)
  | notifyPtyAttached (name : String)
  | notifyPtyDetached (name : String)
  | sendSignal (name : String) (sig : Int)
  | forceKillService (name : String) (token : TerminationToken)
deriving DecidableEq

inductive Response where
  | created (service : CreateService)
  | done
  | service (service : ApiService)
  | services (services : BTreeMap String ApiServiceStatus)
  | logs (text : String)
  /-- A stream over the log queue, read from position 0. -/
  | logStream (queue : RingBuffer)
deriving DecidableEq

/-- `impl From<&Service> for beam_init_api::Service`. -/
def toApiService (value : Service) : Except Panic ApiService := do
  let status ← value.state.status.toApi
  return {
    cmd := value.config.cmd
    args := value.config.args
    status := status
    automaticRestartAttempts := value.state.automaticRestartAttempts
    labels := value.config.labels }

/-- Credentials are reset to the service's, since an automatic restart sends root's. -/
def stopServiceCmd (os : Os) (m : Machine) (credentials : Credentials) (name : String)
    (afterStop : AfterStop) : Except Panic (Outcome (Except ServiceError Unit)) :=
  match getService m credentials name with
  | .error e => .ok (.error e, m)
  | .ok service => terminateService os m service.config.credentials name afterStop

/-- The service found is looked up again with its own credentials, which it accepts. -/
theorem stopServiceCmd_eq (os : Os) (m : Machine) (credentials : Credentials) (name : String)
    (afterStop : AfterStop) :
    stopServiceCmd os m credentials name afterStop
      = match getService m credentials name with
        | .error e => .ok (.error e, m)
        | .ok service =>
            if name = bootstrapName then .ok (.error .bootstrapIsProtected, m)
            else if m.mgr.shutdown ∧ afterStop.isRestart then .ok (.error .shuttingDown, m)
            else terminateServiceInner os m service.config.credentials name afterStop := by
  rw [stopServiceCmd]
  cases hget : getService m credentials name with
  | error e => rfl
  | ok s =>
      have howner : getService m s.config.credentials name = .ok s :=
        getService_iff.mpr ⟨(getService_iff.mp hget).1, Service.checkCredentials_iff.mpr (Or.inr rfl)⟩
      dsimp only
      rw [terminateService]
      rw [getServiceMut_eq, howner]
      by_cases hboot : name = bootstrapName
      · rw [if_pos hboot, if_pos hboot]
      · rw [if_neg hboot, if_neg hboot]

/-- The environment of a service to be created. -/
def serviceEnvironment (os : Os) (m : Machine) (credentials : Credentials) (name : String)
    (env : BTreeMap String String) : Except ServiceError (BTreeMap OsString OsString) :=
  if name = bootstrapName then .ok os.varsOs
  else
    match os.buildEnvironment credentials.uid m.mgr.userEnvFiles with
    | .error e => .error (.buildEnvironment e.text)
    | .ok svcEnv =>
        .ok (env.foldl (fun acc k v => acc.insert (toOsString k) (toOsString v)) svcEnv)

/-- The configuration a `CreateService` request asks for. -/
def requestedConfig (service : CreateService) (env : BTreeMap OsString OsString)
    (credentials : Credentials) : ServiceConfig where
  cmd := service.cmd
  args := service.args
  env := env
  liveness := service.liveness
  pty := service.pty
  credentials := credentials
  labels := service.labels
  gracefulTerminationPeriod := service.gracefulTerminationPeriod

/-- A unit result becomes the response `Json(())`. -/
def answerDone (outcome : Outcome (Except ServiceError Unit)) : Outcome (Except ServiceError Response) :=
  (outcome.1.map (fun () => .done), outcome.2)

def handleApiCommand (os : Os) (m : Machine) (cmd : Command) (credentials : Credentials) :
    Except Panic (Outcome (Except ServiceError Response)) :=
  match cmd with
  | .createService name service =>
      match serviceEnvironment os m credentials name service.env with
      | .error e => .ok (.error e, m)
      | .ok env =>
          match createService m name (requestedConfig service env credentials) with
          | (.error e, m) => .ok (.error e, m)
          | (.ok (), m) => do
              let (result, m) ← startService os.start m credentials name .user
              return (result.map (fun () => .created service), m)
  | .restartService name => do
      return answerDone (← stopServiceCmd os m credentials name (.restart .user))
  | .stopService name prune => do
      return answerDone (← stopServiceCmd os m credentials name (if prune then .prune else .stop))
  | .freezeService name => do
      return answerDone (← freezeService os m credentials name)
  | .thawService name => do
      return answerDone (← thawService os m credentials name)
  | .showService name =>
      match getService m credentials name with
      | .error e => .ok (.error e, m)
      | .ok service => do
          return (.ok (.service (← toApiService service)), m)
  | .listServices => do
      let services ← (listServices m credentials).mapM (fun (name, status) => do
        return (name, ← status.toApi))
      return (.ok (.services (.ofList services compare)), m)
  | .serviceLogs name follow =>
      if follow then
        .ok ((logReader m credentials name).map .logStream, m)
      else
        .ok ((copyLogs m credentials name).map
          (fun lines => .logs (String.join (lines.map (· ++ "\n")))), m)
  | .notifyPtyAttached name => do
      return answerDone (← notifyPtyAttached os m credentials name)
  | .notifyPtyDetached name => do
      return answerDone (← notifyPtyDetached os m credentials name)
  | .sendSignal name sig => do
      return answerDone (← sendSignal os m credentials name sig)
  | .forceKillService name token => do
      let ((), m) ← forceKillService os m name token
      return (.ok .done, m)

end BeamCommands
