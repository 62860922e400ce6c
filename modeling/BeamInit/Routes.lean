import BeamInit.MainLoop

/-! # Routes — what a client can put on the event channel

    Each handler of the API socket sends one event carrying the credentials of
    its peer; the PTY socket sends `GetPty`.  A request is a handler with the
    arguments the HTTP layer extracts for it. -/

namespace BeamRoutes

open BeamApi BeamService BeamCommands BeamMainLoop

/-- `ServiceStatusKind`. -/
inductive ServiceStatusKind where
  | stopped
  | running
  | frozen
  | stopping
  | exited
  | error
deriving DecidableEq

/-! ## The handlers of the API socket -/

section Handlers

variable (credentials : Credentials) (name : String)

def createService (service : CreateService) : Event :=
  .command (.createService name service) credentials

def stopService : Event := .command (.stopService name false) credentials

def deleteService : Event := .command (.stopService name true) credentials

def restartService : Event := .command (.restartService name) credentials

def freezeService : Event := .command (.freezeService name) credentials

def thawService : Event := .command (.thawService name) credentials

def showService : Event := .command (.showService name) credentials

def listServices : Event := .command .listServices credentials

def serviceLogs (follow : Bool) : Event := .command (.serviceLogs name follow) credentials

def notifyPtyAttached : Event := .command (.notifyPtyAttached name) credentials

def notifyPtyDetached : Event := .command (.notifyPtyDetached name) credentials

def sendSignal (sig : Int) : Event := .command (.sendSignal name sig) credentials

/-- `wait_service`: the kind is only used on the subscription that comes back. -/
def waitService (_kind : ServiceStatusKind) : Event := .waitService name credentials

end Handlers

/-! ## The PTY socket -/

/-- `handle_connection`: the name arrives with a length byte before it, and must be UTF-8. -/
def handleConnection (credentials : Credentials) (input : List UInt8) : Option Event :=
  match input with
  | [] => none
  | nameLen :: rest =>
      if rest.length < nameLen.toNat then none
      else
        match String.fromUTF8? ⟨(rest.take nameLen.toNat).toArray⟩ with
        | some name => some (.getPty name credentials)
        | none => none

/-! ## Requests -/

inductive ClientRequest where
  | createService (name : String) (service : CreateService)
  | deleteService (name : String)
  | restartService (name : String)
  | stopService (name : String)
  | freezeService (name : String)
  | thawService (name : String)
  | showService (name : String)
  | listServices
  | serviceLogs (name : String) (follow : Bool)
  | notifyPtyAttached (name : String)
  | notifyPtyDetached (name : String)
  | sendSignal (name : String) (sig : Int)
  | waitService (name : String) (kind : ServiceStatusKind)
  | version
  | pty (input : List UInt8)

/-- The event a request puts on the channel, if any. -/
def ClientRequest.event (credentials : Credentials) : ClientRequest → Option Event
  | .createService name service => some (BeamRoutes.createService credentials name service)
  | .deleteService name => some (BeamRoutes.deleteService credentials name)
  | .restartService name => some (BeamRoutes.restartService credentials name)
  | .stopService name => some (BeamRoutes.stopService credentials name)
  | .freezeService name => some (BeamRoutes.freezeService credentials name)
  | .thawService name => some (BeamRoutes.thawService credentials name)
  | .showService name => some (BeamRoutes.showService credentials name)
  | .listServices => some (BeamRoutes.listServices credentials)
  | .serviceLogs name follow => some (BeamRoutes.serviceLogs credentials name follow)
  | .notifyPtyAttached name => some (BeamRoutes.notifyPtyAttached credentials name)
  | .notifyPtyDetached name => some (BeamRoutes.notifyPtyDetached credentials name)
  | .sendSignal name sig => some (BeamRoutes.sendSignal credentials name sig)
  | .waitService name kind => some (BeamRoutes.waitService credentials name kind)
  | .version => none
  | .pty input => handleConnection credentials input

/-- The events that carry the credentials of a client: all but the force-kill,
    which the code only sends to itself. -/
inductive FromClient (credentials : Credentials) : Event → Prop where
  | command {cmd : Command} : (∀ name token, cmd ≠ .forceKillService name token) →
      FromClient credentials (.command cmd credentials)
  | getPty {name : String} : FromClient credentials (.getPty name credentials)
  | waitService {name : String} : FromClient credentials (.waitService name credentials)

/-- A connection to the PTY store asks for a terminal, and with the credentials of its peer.
    -/
theorem handleConnection_getPty {credentials : Credentials} {input : List UInt8} {event : Event}
    (h : handleConnection credentials input = some event) :
    ∃ name, event = .getPty name credentials := by
  unfold handleConnection at h
  cases input with
  | nil => exact nomatch h
  | cons nameLen rest =>
      dsimp only at h
      by_cases hlen : rest.length < nameLen.toNat
      · rw [if_pos hlen] at h
        exact nomatch h
      · rw [if_neg hlen] at h
        cases hname : String.fromUTF8? ⟨(rest.take nameLen.toNat).toArray⟩ with
        | none => rw [hname] at h; exact nomatch h
        | some name => rw [hname] at h; exact ⟨name, (Option.some.inj h).symm⟩

/-- A request carries its caller's credentials and is never a force-kill. -/
theorem ClientRequest.event_fromClient {credentials : Credentials} {request : ClientRequest}
    {event : Event} (h : request.event credentials = some event) :
    FromClient credentials event := by
  cases request with
  | waitService name kind => cases h; exact .waitService
  | version => exact nomatch h
  | pty input =>
      obtain ⟨name, rfl⟩ := handleConnection_getPty h
      exact .getPty
  | _ => cases h; exact .command nofun

end BeamRoutes
