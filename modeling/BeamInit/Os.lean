import BeamInit.Api

/-! # The system side — what the operating system and the runtime answer

    The manager is deterministic once the answers of the system calls it makes
    are known.  An `Os` holds those answers for the handling of one event; every
    theorem quantifies over it, so a spawn, a kill or a pipe write succeeds or
    fails at will.  The wrappers of `system/mod.rs` and the command encoding of
    the PTY monitor are translated on top of it. -/

namespace BeamOs

open BeamApi

/-! ## Errors and panics -/

/-- The kinds of `io::Error` the code tells apart. -/
inductive ErrorKind where
  | brokenPipe
  | unexpectedEof
  | other
deriving DecidableEq

/-- An `io::Error`: its kind, its errno if it has one and its display text. -/
structure IoError where
  kind : ErrorKind
  rawOsError : Option Int
  text : String
deriving DecidableEq

/-- A panic in the main task, which takes PID 1 down. -/
inductive Panic where
  | unreachable
  | expect (msg : String)
  | assertion (msg : String)
  | panic (msg : String)
deriving DecidableEq

/-- `Result::expect`. -/
def expect {α : Type} (msg : String) : Except IoError α → Except Panic α
  | .ok x => .ok x
  | .error _ => .error (.expect msg)

def ESRCH : Int := 3
def ECHILD : Int := 10
def EMFILE : Int := 24

def SIGINT : Int := 2
def SIGKILL : Int := 9
def SIGTERM : Int := 15
def SIGCHLD : Int := 17
def SIGCONT : Int := 18
def SIGSTOP : Int := 19

/-! ## Exit statuses -/

/-- `std::process::ExitStatus`: the raw status word filled in by `waitpid`. -/
structure StdExitStatus where
  raw : Nat
deriving DecidableEq

/-- `WIFEXITED` and `WEXITSTATUS`. -/
def StdExitStatus.code (status : StdExitStatus) : Option Int :=
  if status.raw % 128 = 0 then some (status.raw / 256 % 256 : Nat) else none

/-- `WIFSIGNALED` and `WTERMSIG`. -/
def StdExitStatus.signal (status : StdExitStatus) : Option Int :=
  if status.raw % 128 ≠ 0 ∧ status.raw % 128 ≠ 127 then some (status.raw % 128 : Nat) else none

/-- `WCOREDUMP`. -/
def StdExitStatus.coreDumped (status : StdExitStatus) : Bool :=
  status.signal.isSome && status.raw / 128 % 2 == 1

/-- `impl From<StdExitStatus> for ExitStatus`. -/
def StdExitStatus.toApi (status : StdExitStatus) : Except Panic ApiExitStatus :=
  match status.code with
  | some code => .ok (.code code)
  | none =>
      match status.signal with
      | some signal => .ok (.signal signal status.coreDumped)
      | none => .error .unreachable

/-! ## The answers for one event -/

/-- A tokio task, named by its abort handle. -/
abbrev AbortHandle := Nat

/-- `TerminationToken(Arc<()>)`; equality is pointer equality. -/
structure TerminationToken where
  arc : Nat
deriving DecidableEq

/-- `Pty`: the device path; the master descriptor is only ever duplicated. -/
structure Pty where
  path : String
deriving DecidableEq

/-- What the system answers while one `start_service` runs.  `run` numbers the
    successful spawns; it is a ghost, never read by the code, that tells two
    processes apart when the kernel reuses a pid. -/
structure StartOutcome where
  pty : Except IoError Pty
  writer : Except IoError AbortHandle
  spawn : Except IoError (Pid × Nat)
  probe : AbortHandle

/-- One child returned by `waitpid`, with the answers for the restart it may cause. -/
structure Reap where
  pid : Pid
  status : StdExitStatus
  start : StartOutcome

/-- The tables of the Unicode version that the standard library comes with. -/
structure Unicode where
  /-- The character continues a grapheme. -/
  isGraphemeExtended : Char → Bool
  isPrintable : Char → Bool

/-- The answers of the system and the runtime during the handling of one event. -/
structure Os where
  /-- `libc::kill`; `none` is success. -/
  kill : Pid → Int → Option IoError
  /-- Writing a command byte to the pipe of the monitor with this pid. -/
  monitorWrite : Pid → UInt8 → Option IoError
  /-- Reading the acknowledgement of that command. -/
  monitorRead : Pid → UInt8 → Option IoError
  /-- `try_clone` of a PTY master. -/
  dup : Option IoError
  start : StartOutcome
  /-- The children `waitpid(-1, WNOHANG)` returns, then its error if it fails. -/
  reaped : List Reap
  waitError : Option IoError
  /-- The token and the timer task made when the named service is terminated. -/
  token : String → TerminationToken
  timer : String → AbortHandle
  /-- `std::env::vars_os` and `build_environment`. -/
  varsOs : BTreeMap OsString OsString
  buildEnvironment : Nat → List String → Except IoError (BTreeMap OsString OsString)
  unicode : Unicode

/-- `kill_process_group`: signal the group, or the single process if it moved
    to another group. -/
def killProcessGroup (os : Os) (pgid : Pid) (sig : Int) : Except Panic (Except IoError Unit) :=
  if pgid > 1 then
    match os.kill (-pgid) sig with
    | none => .ok (.ok ())
    | some e =>
        if e.rawOsError = some ESRCH then
          match os.kill pgid sig with
          | none => .ok (.ok ())
          | some e => .ok (.error e)
        else .ok (.error e)
  else .error (.assertion s!"process group {pgid} is not valid")

/-! ## Commands to the PTY monitor -/

inductive MonitorCommand where
  | signal (sig : Int)
  | foreground
  | background
deriving DecidableEq

/-- `i8::cast_unsigned`. -/
def castUnsigned8 (x : Int) : UInt8 := UInt8.ofNat (x % 256).toNat

/-- `u8::cast_signed`. -/
def castSigned8 (b : UInt8) : Int := if b.toNat < 128 then b.toNat else (b.toNat : Int) - 256

def MonitorCommand.ser : MonitorCommand → Except Panic UInt8
  | .signal sig =>
      -- `sig.cast_unsigned()` is a `u32`, narrowed to an `i8`
      if (sig % 2 ^ 32).toNat ≤ 127 then .ok (castUnsigned8 (sig % 2 ^ 32))
      else .error (.expect "invalid signal")
  | .foreground => .ok (castUnsigned8 (-1))
  | .background => .ok (castUnsigned8 (-2))

def MonitorCommand.de (b : UInt8) : Except Panic MonitorCommand :=
  if castSigned8 b = -1 then .ok .foreground
  else if castSigned8 b = -2 then .ok .background
  else if castSigned8 b ≥ 0 then .ok (.signal (castSigned8 b))
  else .error .unreachable

/-- The two pipe ends of a `MonitorCommandSender`, named by the monitor that
    holds the other ends. -/
structure MonitorCommandSender where
  monitor : Pid
deriving DecidableEq

/-- `MonitorCommandSender::send`. -/
def MonitorCommandSender.send (os : Os) (tx : MonitorCommandSender) (cmd : MonitorCommand) :
    Except Panic (Except IoError Unit) := do
  let byte ← cmd.ser
  match os.monitorWrite tx.monitor byte with
  -- the monitor exited, a SIGCHLD will follow
  | some e => if e.kind = .brokenPipe then return .ok () else return .error e
  | none =>
      match os.monitorRead tx.monitor byte with
      | none => return .ok ()
      | some e => if e.kind = .unexpectedEof then return .ok () else return .error e

/-- Every signal the manager lets through survives the encoding. -/
theorem ser_signal_ok {sig : Int} (h0 : 0 < sig) (h1 : sig < 32) :
    (MonitorCommand.signal sig).ser = .ok (castUnsigned8 sig) := by
  have hmod : sig % 2 ^ 32 = sig := Int.emod_eq_of_lt (by omega) (by omega)
  show (if (sig % 2 ^ 32).toNat ≤ 127 then _ else _) = _
  rw [hmod, if_pos (by omega)]

end BeamOs
