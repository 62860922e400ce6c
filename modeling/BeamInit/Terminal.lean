import BeamInit.Os
import BeamInit.Runs

/-! # Attached terminal — the loop of `terminal::manage`

    An attached beamctl copies between the user's terminal and the PTY of the
    service, and forwards the signals it gets.  All three descriptors are
    non-blocking, and `poll` reports them edge-triggered.  A step is one system
    call of the loop, or the arrival of a signal. -/

namespace BeamTerminal

open BeamOs Runs

/-! ## The code of the loop -/

/-- The signals of the signalfd: SIGINT, SIGQUIT, SIGTSTP and SIGWINCH. -/
inductive TtySignal where
  | interrupt
  | quit
  | stop
  | resize
deriving DecidableEq

/-- `SIGINT | SIGQUIT`. -/
def TtySignal.isForwarded : TtySignal → Bool
  | .interrupt | .quit => true
  | .stop | .resize => false

inductive Direction where
  /-- From the user's terminal to the PTY. -/
  | input
  /-- From the PTY to the user's terminal. -/
  | output
deriving DecidableEq

inductive Token where
  | canReadFromPty
  | canReadFromController
  | signalArrived
deriving DecidableEq

/-- What `io::copy` is called on for a token. -/
def Token.direction? : Token → Option Direction
  | .canReadFromPty => some .output
  | .canReadFromController => some .input
  | .signalArrived => none

/-- The errors the loop tells apart; one of `write` may also be `WriteZero`. -/
inductive CopyError where
  | wouldBlock
  | eio
  | other (err : IoError)
deriving DecidableEq

def terminated : Except CopyError Unit → Except CopyError Bool
  | .ok () => .ok true
  | .error .eio => .ok true
  | .error .wouldBlock => .ok false
  | .error (.other err) => .error (.other err)

/-- Where `manage` is. -/
inductive Phase where
  /-- At the top of the loop, before `tty.sync`. -/
  | syncing
  /-- In `poll`. -/
  | polling
  /-- Before the next of these events. -/
  | handling (events : List Token)
  /-- In `io::copy`, before `read`. -/
  | reading (dir : Direction) (events : List Token)
  /-- In `write_all`, with these bytes to go. -/
  | writing (dir : Direction) (rest : List UInt8) (events : List Token)
  /-- A signal has been read. -/
  | signalled (sig : TtySignal) (events : List Token)
  | returned (result : Except CopyError Unit)

/-- After `io::copy`, or after a detach: `manage` returns, or takes the next event. -/
def Phase.after (result : Except CopyError Unit) (events : List Token) : Phase :=
  match terminated result with
  | .ok true => .returned (.ok ())
  | .ok false => .handling events
  | .error err => .returned (.error err)

/-! ## beamctl, the descriptors and the signals -/

structure Attachment where
  phase : Phase
  /-- The bytes read from the one end and written to the other so far. -/
  read : Direction → List UInt8
  written : Direction → List UInt8
  /-- The signals that are in the signalfd. -/
  pending : List TtySignal
  /-- A readiness event of the signalfd is to come. -/
  edge : Bool
  /-- The signals that came to be pending, that were read, and that were forwarded. -/
  arrived : List TtySignal
  taken : List TtySignal
  forwarded : List TtySignal

namespace Attachment

/-- The descriptors are registered; the loop begins. -/
def start : Attachment where
  phase := .syncing
  read _ := []
  written _ := []
  pending := []
  edge := false
  arrived := []
  taken := []
  forwarded := []

/-- `manage` has not returned. -/
def Runs (w : Attachment) : Prop := ∀ result, w.phase ≠ .returned result

/-- `poll` reports the signalfd if it became readable since it last did. -/
structure Polls (w : Attachment) (events : List Token) : Prop where
  some : events ≠ []
  once : events.Nodup
  signal : Token.signalArrived ∈ events ↔ w.edge = true ∧ w.pending ≠ []

end Attachment

inductive AttachmentMove where
  | arrived (sig : TtySignal)
  /-- The signal is pending already. -/
  | merged (sig : TtySignal)
  | synced
  | syncFailed (err : IoError)
  | polled (events : List Token)
  | pollFailed (err : IoError)
  | handled
  | copies (token : Token)
  | read (dir : Direction) (chunk : List UInt8)
  | endOfFile
  | readFailed (err : CopyError)
  | wrote (n : Nat)
  | writeFailed (err : CopyError)
  | took (sig : TtySignal)
  /-- The signalfd has no signal. -/
  | tookNothing
  | forwarded
  | forwardFailed (err : IoError)
  | resized
  | detached
  | detachFailed (err : IoError)

/-- One system call of the loop, or an arrival.  A call that is interrupted is made
    again. -/
inductive AttachmentStep : Attachment → AttachmentMove → Attachment → Prop where
  | arrived {w : Attachment} {sig : TtySignal} : w.Runs → sig ∉ w.pending →
      AttachmentStep w (.arrived sig) { w with
        pending := w.pending ++ [sig], edge := true, arrived := w.arrived ++ [sig] }
  | merged {w : Attachment} {sig : TtySignal} : w.Runs → sig ∈ w.pending →
      AttachmentStep w (.merged sig) w
  | synced {w : Attachment} : w.phase = .syncing →
      AttachmentStep w .synced { w with phase := .polling }
  | syncFailed {w : Attachment} {err : IoError} : w.phase = .syncing →
      AttachmentStep w (.syncFailed err) { w with phase := .returned (.error (.other err)) }
  | polled {w : Attachment} {events : List Token} : w.phase = .polling → w.Polls events →
      AttachmentStep w (.polled events) { w with
        phase := .handling events, edge := w.edge && decide (Token.signalArrived ∉ events) }
  | pollFailed {w : Attachment} {err : IoError} : w.phase = .polling →
      AttachmentStep w (.pollFailed err) { w with phase := .returned (.error (.other err)) }
  | handled {w : Attachment} : w.phase = .handling [] →
      AttachmentStep w .handled { w with phase := .syncing }
  | copies {w : Attachment} {token : Token} {dir : Direction} {events : List Token} :
      w.phase = .handling (token :: events) → token.direction? = some dir →
      AttachmentStep w (.copies token) { w with phase := .reading dir events }
  | read {w : Attachment} {dir : Direction} {events : List Token} {chunk : List UInt8} :
      w.phase = .reading dir events → chunk ≠ [] →
      AttachmentStep w (.read dir chunk) { w with
        phase := .writing dir chunk events
        read := Function.update w.read dir (w.read dir ++ chunk) }
  | endOfFile {w : Attachment} {dir : Direction} {events : List Token} :
      w.phase = .reading dir events →
      AttachmentStep w .endOfFile { w with phase := .after (.ok ()) events }
  | readFailed {w : Attachment} {dir : Direction} {events : List Token} {err : CopyError} :
      w.phase = .reading dir events →
      AttachmentStep w (.readFailed err) { w with phase := .after (.error err) events }
  | wrote {w : Attachment} {dir : Direction} {rest : List UInt8} {events : List Token} {n : Nat} :
      w.phase = .writing dir rest events → 0 < n → n ≤ rest.length →
      AttachmentStep w (.wrote n) { w with
        phase := if n = rest.length then .reading dir events else .writing dir (rest.drop n) events
        written := Function.update w.written dir (w.written dir ++ rest.take n) }
  | writeFailed {w : Attachment} {dir : Direction} {rest : List UInt8} {events : List Token}
      {err : CopyError} : w.phase = .writing dir rest events →
      AttachmentStep w (.writeFailed err) { w with phase := .after (.error err) events }
  | took {w : Attachment} {events : List Token} {sig : TtySignal} :
      w.phase = .handling (.signalArrived :: events) → sig ∈ w.pending →
      AttachmentStep w (.took sig) { w with
        phase := .signalled sig events
        pending := w.pending.erase sig
        taken := w.taken ++ [sig] }
  | tookNothing {w : Attachment} {events : List Token} :
      w.phase = .handling (.signalArrived :: events) → w.pending = [] →
      AttachmentStep w .tookNothing { w with phase := .returned (.error .wouldBlock) }
  | forwarded {w : Attachment} {events : List Token} {sig : TtySignal} :
      w.phase = .signalled sig events → sig.isForwarded = true →
      AttachmentStep w .forwarded { w with
        phase := .handling events, forwarded := w.forwarded ++ [sig] }
  | forwardFailed {w : Attachment} {events : List Token} {sig : TtySignal} {err : IoError} :
      w.phase = .signalled sig events → sig.isForwarded = true →
      AttachmentStep w (.forwardFailed err) { w with phase := .returned (.error (.other err)) }
  | resized {w : Attachment} {events : List Token} : w.phase = .signalled .resize events →
      AttachmentStep w .resized { w with phase := .handling events }
  | detached {w : Attachment} {events : List Token} : w.phase = .signalled .stop events →
      AttachmentStep w .detached { w with phase := .after (.ok ()) events }
  | detachFailed {w : Attachment} {events : List Token} {err : IoError} :
      w.phase = .signalled .stop events →
      AttachmentStep w (.detachFailed err) { w with phase := .returned (.error (.other err)) }

/-- Only a loop that has not returned takes a step. -/
theorem runs_of_step {w w' : Attachment} {l : AttachmentMove} (h : AttachmentStep w l w') :
    w.Runs := by
  have hother : ∀ {phase : Phase}, w.phase = phase → (∀ result, phase ≠ .returned result) → w.Runs :=
    fun hphase hne result heq => hne result (hphase.symm.trans heq)
  cases h with
  | arrived hruns | merged hruns => exact hruns
  | synced hphase | syncFailed hphase | polled hphase | pollFailed hphase | handled hphase
  | copies hphase | read hphase | endOfFile hphase | readFailed hphase | wrote hphase
  | writeFailed hphase | took hphase | tookNothing hphase | forwarded hphase | forwardFailed hphase
  | resized hphase | detached hphase | detachFailed hphase =>
      exact hother hphase fun result => Phase.noConfusion

theorem runs_of_polling {w : Attachment} (h : w.phase = .polling) : w.Runs := by
  intro result hreturned
  rw [h] at hreturned
  cases hreturned

/-- After a call the loop has returned, or goes on with the events. -/
theorem after_cases (result : Except CopyError Unit) (events : List Token) :
    (∃ answer, Phase.after result events = .returned answer)
      ∨ Phase.after result events = .handling events := by
  rw [Phase.after]
  cases terminated result with
  | error err => exact .inl ⟨_, rfl⟩
  | ok done => cases done with
    | true => exact .inl ⟨_, rfl⟩
    | false => exact .inr rfl

end BeamTerminal
