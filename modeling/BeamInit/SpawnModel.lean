import BeamInit.Runs

/-! # Spawning a service — three processes and their pipes

    `spawn_service` forks a helper, which forks the service process; the helper
    stays on as the monitor when there is a PTY.  The three share five pipes.
    The parent reads an error number, or the end of the error pipe, and then the
    pid.  A process is the list of what it has left to do; every system call of
    a forked process may fail, and the process exits there. -/

namespace BeamSpawnPipes

open Runs

/-! ## Outcomes -/

/-- The system calls that may fail. -/
inductive Call where
  | firstFork
  | restoreSigmask
  | setsid
  | makeTty
  | dupStdin
  | dupStdout
  | dupStderr
  | newSignalSet
  | blockSigchld
  | newSignalFd
  | serviceFork
  | writePid
  | waitPgid
  | newTtouSet
  | blockSigttou
  | setMask
  | setpgid
  | getrlimit
  | setrlimit
  | closeRange
  | setCreds
  | execvp
  | lastOsError
  | writeErrno
deriving DecidableEq

/-- What the system answers. -/
structure Outcomes where
  fails : Call → Bool
  helperPid : Int
  servicePid : Int
  errno : Int

/-! ## Programs -/

inductive Pipe where
  | err
  | pid
  | monitor
  | monitorSync
  | pgidSync
deriving DecidableEq

/-- What a forked process does next. -/
inductive Act where
  /-- Closing its write end of a pipe. -/
  | drop (pipe : Pipe)
  /-- `expect_no_panic` of a call. -/
  | call (c : Call)
  | fork
  /-- `write_all` of one number. -/
  | send (pipe : Pipe)
  /-- `pgid_sync_rx.wait()`. -/
  | wait
  | exec
  | exit
  /-- The loop of the monitor, which holds on to its ends. -/
  | serve
deriving DecidableEq

/-- The helper up to the second fork. -/
def setup : Bool → List Act
  | false =>
      [.drop .monitor, .call .restoreSigmask, .call .setsid, .call .dupStdout, .call .dupStderr]
  | true =>
      [.drop .monitor, .call .restoreSigmask, .call .setsid, .call .makeTty, .call .dupStdin,
        .call .dupStdout, .call .dupStderr, .call .newSignalSet, .call .blockSigchld,
        .call .newSignalFd]

/-- The ends the helper closes after the second fork. -/
def handOver : Bool → List Act
  | false => [.drop .err]
  | true => [.drop .err, .drop .pgidSync]

/-- The helper once it has written the pid. -/
def afterPid : Bool → List Act
  | false => [.exit]
  | true => [.wait, .call .newTtouSet, .call .blockSigttou, .serve]

def helperProgram (pty : Bool) : List Act :=
  setup pty ++ .fork :: (handOver pty ++ .send .pid :: afterPid pty)

/-- The service process up to `execvp`. -/
def childSetup : Bool → List Act
  | false =>
      [.call .setpgid, .call .getrlimit, .call .setrlimit, .call .closeRange, .call .setCreds]
  | true =>
      [.call .setMask, .call .setpgid, .drop .pgidSync, .call .getrlimit, .call .setrlimit,
        .call .closeRange, .call .setCreds]

/-- What `exec_with_creds_and_err_pipe` does when `execvp` returns. -/
def childReport : List Act := [.call .lastOsError, .send .err, .exit]

def childProgram (pty : Bool) : List Act := childSetup pty ++ .exec :: childReport

/-! ## Processes -/

inductive Role where
  | helper
  | child
deriving DecidableEq

/-- A forked process; while it runs it holds the write ends of some pipes. -/
inductive ProcState where
  | unborn
  | running (todo : List Act) (holds : Pipe → Bool)
  /-- `execvp` closed every end. -/
  | execed
  | exited

inductive SpawnResult where
  | ok (pid : Int) (monitor : Bool)
  | osError (errno : Int)
  | unexpectedEof
  | forkFailed
deriving DecidableEq

/-- Where the parent is in `spawn_service`. -/
inductive ParentAt where
  | forking
  | droppingErr
  | droppingSync
  | readingErr
  | readingPid
  | returned (result : SpawnResult)
deriving DecidableEq

structure Spawning where
  parent : ParentAt
  parentHolds : Pipe → Bool
  procs : Role → ProcState
  /-- The numbers written to each pipe; the parent reads at most the first. -/
  written : Pipe → List Int

def start : Spawning := ⟨.forking, fun _ => true, fun _ => .unborn, fun _ => []⟩

def ProcState.holds : ProcState → Pipe → Bool
  | .running _ holds => holds
  | _ => fun _ => false

/-- Some process holds the write end. -/
def Spawning.isOpen (w : Spawning) (pipe : Pipe) : Bool :=
  w.parentHolds pipe || (w.procs .helper).holds pipe || (w.procs .child).holds pipe

def without (holds : Pipe → Bool) (pipe : Pipe) : Pipe → Bool :=
  fun q => if q = pipe then false else holds q

def Spawning.setProc (w : Spawning) (role : Role) (proc : ProcState) : Spawning :=
  { w with procs := fun r => if r = role then proc else w.procs r }

def Spawning.write (w : Spawning) (pipe : Pipe) (value : Int) : Spawning :=
  { w with written := fun q => if q = pipe then w.written q ++ [value] else w.written q }

/-- The call behind a `write_all`. -/
def sendCall : Pipe → Call
  | .err => .writeErrno
  | _ => .writePid

/-- The number a process writes: the monitor is the main process where there is one. -/
def Outcomes.value (out : Outcomes) (pty : Bool) : Pipe → Int
  | .err => out.errno
  | _ => if pty then out.helperPid else out.servicePid

/-! ## Steps -/

section Steps

variable (pty : Bool) (out : Outcomes)

/-- One act of a process; `none` where it blocks. -/
def act (w : Spawning) (role : Role) (rest : List Act) (holds : Pipe → Bool) :
    Act → Option Spawning
  | .drop pipe => some (w.setProc role (.running rest (without holds pipe)))
  | .call c => some (w.setProc role (if out.fails c then .exited else .running rest holds))
  | .fork =>
      if out.fails .serviceFork then some (w.setProc role .exited)
      else some ((w.setProc role (.running rest holds)).setProc .child
        (.running (childProgram pty) holds))
  | .send pipe =>
      if out.fails (sendCall pipe) then some (w.setProc role .exited)
      else some ((w.setProc role (.running rest holds)).write pipe (out.value pty pipe))
  | .wait =>
      -- Nobody writes to this pipe, so the read ends with it.
      if w.isOpen .pgidSync then none
      else some (w.setProc role (if out.fails .waitPgid then .exited else .running rest holds))
  | .exec => some (w.setProc role (if out.fails .execvp then .running rest holds else .execed))
  | .exit => some (w.setProc role .exited)
  | .serve => none

def stepProc (w : Spawning) (role : Role) : Option Spawning :=
  match w.procs role with
  | .running (next :: rest) holds => act pty out w role rest holds next
  | _ => none

/-- Returning drops every end but the one of the command pipe in the result. -/
def Spawning.returnWith (w : Spawning) (result : SpawnResult) : Spawning :=
  { w with
    parent := .returned result
    parentHolds := fun q => match result, q with
      | .ok _ true, .monitor => true
      | _, _ => false }

def stepParent (w : Spawning) : Option Spawning :=
  match w.parent with
  | .forking =>
      if out.fails .firstFork then some (w.returnWith .forkFailed)
      else some ({ w with parent := .droppingErr }.setProc .helper
        (.running (helperProgram pty) w.parentHolds))
  | .droppingErr =>
      some { w with parent := .droppingSync, parentHolds := without w.parentHolds .err }
  | .droppingSync =>
      some { w with parent := .readingErr, parentHolds := without w.parentHolds .monitorSync }
  | .readingErr =>
      match w.written .err with
      | errno :: _ => some (w.returnWith (.osError errno))
      | [] => if w.isOpen .err then none else some { w with parent := .readingPid }
  | .readingPid =>
      match w.written .pid with
      | pid :: _ => some (w.returnWith (.ok pid pty))
      | [] => if w.isOpen .pid then none else some (w.returnWith .unexpectedEof)
  | .returned _ => none

/-- Who runs. -/
inductive Runner where
  | parent
  | proc (role : Role)
deriving DecidableEq

def step (w : Spawning) : Runner → Option Spawning
  | .parent => stepParent pty out w
  | .proc role => stepProc pty out w role

def SpawnStep (w : Spawning) (runner : Runner) (w' : Spawning) : Prop :=
  step pty out w runner = some w'

end Steps

/-! ## Being stuck -/

/-- The process will write to the pipe or close it, whatever its calls answer,
    before anything it can block on. -/
def touches (pipe : Pipe) : List Act → Bool
  | [] => false
  | .drop q :: rest => q = pipe || touches pipe rest
  | .send q :: rest => q = pipe || touches pipe rest
  | .exit :: _ => true
  | .wait :: _ => false
  | .serve :: _ => false
  | .exec :: rest => touches pipe rest
  | .call _ :: rest => touches pipe rest
  | .fork :: rest => touches pipe rest

/-- Another live process holds the write end and will write to it or close it. -/
def Attends (w : Spawning) (pipe : Pipe) (role : Role) : Prop :=
  ∃ todo holds, w.procs role = .running todo holds ∧ holds pipe = true
    ∧ touches pipe todo = true

/-- The parent is blocked reading a pipe: it is empty, and some process, the
    parent included, holds its write end. -/
def Blocked (w : Spawning) (pipe : Pipe) : Prop :=
  ((w.parent = .readingErr ∧ pipe = .err) ∨ (w.parent = .readingPid ∧ pipe = .pid))
    ∧ w.written pipe = [] ∧ w.isOpen pipe = true

def Stuck (w : Spawning) : Prop := ∃ pipe, Blocked w pipe ∧ ∀ role, ¬Attends w pipe role

/-! ## When the parent is answered -/

section Condition

variable (pty : Bool) (out : Outcomes)

/-- The act does not make its process exit. -/
def Act.succeeds : Act → Bool
  | .call c => !out.fails c
  | .fork => !out.fails .serviceFork
  | .send pipe => !out.fails (sendCall pipe)
  | _ => true

/-- The helper gets as far as writing the pid. -/
def HelperReports : Prop :=
  ∀ a ∈ setup pty ++ .fork :: (handOver pty ++ [.send .pid]), Act.succeeds out a = true

/-- The service process is forked, and writes why `execvp` failed. -/
def ChildReports : Prop :=
  (∀ a ∈ setup pty ++ [.fork], Act.succeeds out a = true)
    ∧ (∀ a ∈ childSetup pty, Act.succeeds out a = true) ∧ out.fails .execvp = true
    ∧ ∀ a ∈ childReport, Act.succeeds out a = true

/-- The helper writes the pid or the service process writes an error, unless
    there is no helper to wait for. -/
def Reports : Prop :=
  out.fails .firstFork = true ∨ HelperReports pty out ∨ ChildReports pty out

end Condition

end BeamSpawnPipes
