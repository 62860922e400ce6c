import BeamInit.Os
import BeamInit.ProcessTable
import BeamInit.Runs

/-! # The PTY monitor — its loop and the pipes to beam-init

    A service with a PTY runs under a monitor.  beam-init sends the monitor one
    command byte at a time and waits for the byte that acknowledges it; the
    monitor polls the command pipe and its signalfd, executes commands on the
    process group of the service, and exits with the service.  A step is one
    system call of either side, or something the service's processes do. -/

namespace BeamMonitorLoop

open BeamApi BeamOs Runs
open ProcessTable (Table Process)

/-! ## The code of the monitor -/

def SIGTSTP : Int := 20

/-- `revents` of the two descriptors the monitor polls. -/
structure Revents where
  /-- `POLLIN` on the command pipe. -/
  command : Bool
  /-- `POLLERR` or `POLLHUP` on the command pipe. -/
  hangup : Bool
  /-- `POLLIN` on the signalfd. -/
  child : Bool
deriving DecidableEq

/-- The process group that is made the foreground group of the terminal. -/
inductive Leader where
  | service
  | monitor
deriving DecidableEq

/-- The system calls of the command arms. -/
inductive Syscall where
  /-- `killpg(service_pid, signal)`. -/
  | killpg (signal : Int)
  | tcsetpgrp (leader : Leader)
deriving DecidableEq

/-- The arms of the loop: each system call is under `expect_no_panic`. -/
def handle : MonitorCommand → List Syscall
  | .signal sig => [.killpg sig]
  | .foreground => [.tcsetpgrp .service, .killpg SIGCONT]
  | .background => [.killpg SIGTSTP, .tcsetpgrp .monitor]

/-- What the kernel makes of a call: the processes that take a signal, or its error.
    The monitor leads its session, and the terminal is that session's. -/
def Syscall.perform (processes : Table) (monitorPid servicePid : Pid) : Syscall → Except Int (List Pid)
  | .killpg _ => ProcessTable.kill processes (-servicePid)
  | .tcsetpgrp .service =>
      (ProcessTable.tcsetpgrp processes monitorPid servicePid).map (fun () => [])
  | .tcsetpgrp .monitor =>
      (ProcessTable.tcsetpgrp processes monitorPid monitorPid).map (fun () => [])

inductive MonitorExit where
  | code (code : Int)
  /-- `exit_with_signal`, which ends the monitor in any case. -/
  | signal (signal : Int)
deriving DecidableEq

/-- How the monitor exits after `service_pid`. -/
def exitLike (status : StdExitStatus) : MonitorExit :=
  match status.code with
  | some code => .code code
  | none =>
      match status.signal with
      | some signal => .signal signal
      | none => .code 1

/-- Where the monitor is in its loop. -/
inductive Phase where
  /-- In `poll`. -/
  | polling
  /-- Before the check of `POLLIN` on the command pipe. -/
  | command (revents : Revents)
  /-- In an arm, with these calls to go, and then the acknowledgement. -/
  | executing (cmd : MonitorCommand) (calls : List Syscall) (revents : Revents)
  /-- Before the check of `POLLERR` and `POLLHUP`. -/
  | hangup (revents : Revents)
  /-- Before the check of `POLLIN` on the signalfd. -/
  | signals (revents : Revents)
  /-- In the `waitpid` loop. -/
  | waiting
  | exited (exit : MonitorExit)
  /-- A byte that `de` does not know. -/
  | aborted
deriving DecidableEq

/-! ## beam-init, the monitor and the service -/

structure Session where
  /-- The command whose acknowledgement beam-init waits for. -/
  caller : Option MonitorCommand
  /-- beam-init has dropped its two ends. -/
  dropped : Bool
  commands : List UInt8
  acks : List UInt8
  phase : Phase
  monitorPid : Pid
  servicePid : Pid
  /-- The processes of the system. -/
  processes : Table
  /-- The service's own process has not terminated. -/
  live : Bool
  /-- The children of the monitor that `waitpid` would return. -/
  zombies : List (Pid × StdExitStatus)
  /-- SIGCHLD is pending. -/
  sigchld : Bool
  /-- The commands written, acknowledged, decoded and executed so far, the calls
      that succeeded, and the children waited for. -/
  sent : List MonitorCommand
  acknowledged : List MonitorCommand
  begun : List MonitorCommand
  executed : List MonitorCommand
  calls : List Syscall
  waited : List Pid
deriving DecidableEq

namespace Session

/-- The service has been started, in a group of its own in the monitor's session;
    the monitor enters its loop. -/
def start (monitorPid servicePid : Pid) : Session where
  caller := none
  dropped := false
  commands := []
  acks := []
  phase := .polling
  monitorPid := monitorPid
  servicePid := servicePid
  processes := .ofList [(monitorPid, ⟨monitorPid, monitorPid, false⟩),
    (servicePid, ⟨servicePid, monitorPid, false⟩)] compare
  live := true
  zombies := []
  sigchld := false
  sent := []
  acknowledged := []
  begun := []
  executed := []
  calls := []
  waited := []

/-- The monitor runs no more. -/
def Over (w : Session) : Prop := (∃ exit, w.phase = .exited exit) ∨ w.phase = .aborted

/-- Does the call succeed? -/
def succeeds (w : Session) (call : Syscall) : Bool :=
  (call.perform w.processes w.monitorPid w.servicePid).toOption.isSome

/-- What the kernel keeps to, whatever the processes of the system do. -/
structure Admits (w : Session) (processes : Table) : Prop where
  coherent : ProcessTable.Coherent processes
  /-- The monitor stays where `setsid` has put it. -/
  monitor : ¬ w.Over → processes[w.monitorPid]? = some ⟨w.monitorPid, w.monitorPid, false⟩
  /-- A child of the monitor stays in the table until it is waited for. -/
  service : ¬ w.Over → w.servicePid ∉ w.waited →
    processes[w.servicePid]?.map Process.zombie = some (!w.live)

/-- What `poll` may return. -/
structure Polls (w : Session) (revents : Revents) : Prop where
  command : revents.command = true ↔ w.commands ≠ []
  hangup : revents.hangup = true → w.dropped = true
  child : revents.child = w.sigchld
  some : revents.command = true ∨ revents.hangup = true ∨ revents.child = true

end Session

/-- The commands that beam-init sends: `send_signal` checks the range. -/
def Sendable : MonitorCommand → Prop
  | .signal sig => 0 < sig ∧ sig < 32
  | .foreground | .background => True

inductive SessionMove where
  /-- `send`: the byte is written. -/
  | wrote (cmd : MonitorCommand)
  /-- `send` returns `Ok`: the write gives EPIPE. -/
  | brokenPipe (cmd : MonitorCommand)
  /-- `send` returns the error of the write. -/
  | failed (cmd : MonitorCommand)
  /-- `send` returns `Ok`: the acknowledgement is read. -/
  | returned (cmd : MonitorCommand)
  /-- `send` returns `Ok`: the read gives EOF. -/
  | endOfFile (cmd : MonitorCommand)
  | dropped
  | polled (revents : Revents)
  | read (cmd : MonitorCommand)
  | undecodable
  | noCommand
  | called (call : Syscall)
  | callFailed (call : Syscall)
  | acked
  | ackFailed
  | hungUp
  | signalled
  | noSignal
  | waited (pid : Pid) (status : StdExitStatus)
  | nobody
  /-- `waitpid` fails with ECHILD. -/
  | noChild
  /-- A child of the monitor terminates. -/
  | childExited (pid : Pid) (status : StdExitStatus)
  /-- Processes start, end or move to another group or session. -/
  | regrouped (processes : Table)
  /-- The monitor is killed from outside. -/
  | killed (signal : Int)

/-- One step of beam-init's `send`, of the monitor's loop or of the service. -/
inductive SessionStep : Session → SessionMove → Session → Prop where
  | wrote {w : Session} {cmd : MonitorCommand} {byte : UInt8} :
      w.caller = none → w.dropped = false → ¬ w.Over → Sendable cmd → cmd.ser = .ok byte →
      SessionStep w (.wrote cmd) { w with
        caller := some cmd, commands := w.commands ++ [byte], sent := w.sent ++ [cmd] }
  | brokenPipe {w : Session} {cmd : MonitorCommand} :
      w.caller = none → w.dropped = false → w.Over → Sendable cmd → SessionStep w (.brokenPipe cmd) w
  | failed {w : Session} {cmd : MonitorCommand} :
      w.caller = none → w.dropped = false → Sendable cmd → SessionStep w (.failed cmd) w
  | returned {w : Session} {cmd : MonitorCommand} {ack : UInt8} {acks : List UInt8} :
      w.caller = some cmd → w.acks = ack :: acks →
      SessionStep w (.returned cmd) { w with
        caller := none, acks := acks, acknowledged := w.acknowledged ++ [cmd] }
  | endOfFile {w : Session} {cmd : MonitorCommand} :
      w.caller = some cmd → w.acks = [] → w.Over →
      SessionStep w (.endOfFile cmd) { w with caller := none }
  | dropped {w : Session} : w.caller = none →
      SessionStep w .dropped { w with dropped := true }
  | polled {w : Session} {revents : Revents} : w.phase = .polling → w.Polls revents →
      SessionStep w (.polled revents) { w with phase := .command revents }
  | read {w : Session} {revents : Revents} {byte : UInt8} {rest : List UInt8}
      {cmd : MonitorCommand} :
      w.phase = .command revents → revents.command = true → w.commands = byte :: rest →
      MonitorCommand.de byte = .ok cmd →
      SessionStep w (.read cmd) { w with
        phase := .executing cmd (handle cmd) revents, commands := rest, begun := w.begun ++ [cmd] }
  | undecodable {w : Session} {revents : Revents} {byte : UInt8} {rest : List UInt8} {e : Panic} :
      w.phase = .command revents → revents.command = true → w.commands = byte :: rest →
      MonitorCommand.de byte = .error e →
      SessionStep w .undecodable { w with phase := .aborted, commands := rest }
  | noCommand {w : Session} {revents : Revents} :
      w.phase = .command revents → revents.command = false →
      SessionStep w .noCommand { w with phase := .hangup revents }
  | called {w : Session} {cmd : MonitorCommand} {call : Syscall} {calls : List Syscall}
      {revents : Revents} :
      w.phase = .executing cmd (call :: calls) revents → w.succeeds call = true →
      SessionStep w (.called call) { w with
        phase := .executing cmd calls revents, calls := w.calls ++ [call] }
  | callFailed {w : Session} {cmd : MonitorCommand} {call : Syscall} {calls : List Syscall}
      {revents : Revents} :
      w.phase = .executing cmd (call :: calls) revents → w.succeeds call = false →
      SessionStep w (.callFailed call) { w with phase := .exited (.code 101) }
  | acked {w : Session} {cmd : MonitorCommand} {revents : Revents} :
      w.phase = .executing cmd [] revents → w.dropped = false →
      SessionStep w .acked { w with
        phase := .hangup revents, acks := w.acks ++ [0], executed := w.executed ++ [cmd] }
  | ackFailed {w : Session} {cmd : MonitorCommand} {revents : Revents} :
      w.phase = .executing cmd [] revents → w.dropped = true →
      SessionStep w .ackFailed { w with phase := .exited (.code 101) }
  | hungUp {w : Session} {revents : Revents} : w.phase = .hangup revents →
      SessionStep w .hungUp { w with
        phase := .signals revents
        -- the result of this `killpg` is ignored
        calls := if revents.hangup ∧ w.succeeds (.killpg SIGKILL) then
          w.calls ++ [.killpg SIGKILL] else w.calls }
  | signalled {w : Session} {revents : Revents} :
      w.phase = .signals revents → revents.child = true →
      SessionStep w .signalled { w with phase := .waiting, sigchld := false }
  | noSignal {w : Session} {revents : Revents} :
      w.phase = .signals revents → revents.child = false →
      SessionStep w .noSignal { w with phase := .polling }
  | waited {w : Session} {pid : Pid} {status : StdExitStatus} :
      w.phase = .waiting → (pid, status) ∈ w.zombies →
      SessionStep w (.waited pid status) { w with
        phase := if pid ≠ w.servicePid then .waiting else .exited (exitLike status)
        processes := w.processes.erase pid
        zombies := w.zombies.erase (pid, status)
        waited := w.waited ++ [pid] }
  | nobody {w : Session} : w.phase = .waiting → w.zombies = [] → w.servicePid ∉ w.waited →
      SessionStep w .nobody { w with phase := .polling }
  | noChild {w : Session} : w.phase = .waiting → w.zombies = [] → w.servicePid ∈ w.waited →
      SessionStep w .noChild { w with phase := .exited (.code 101) }
  | childExited {w : Session} {pid : Pid} {status : StdExitStatus} :
      pid ≠ w.monitorPid → (pid = w.servicePid → w.live = true) →
      SessionStep w (.childExited pid status) { w with
        processes := ProcessTable.terminate w.processes pid
        zombies := w.zombies ++ [(pid, status)], sigchld := true
        live := w.live && decide (pid ≠ w.servicePid) }
  | regrouped {w : Session} {processes : Table} : w.Admits processes →
      SessionStep w (.regrouped processes) { w with processes := processes }
  | killed {w : Session} {signal : Int} : ¬ w.Over →
      SessionStep w (.killed signal) { w with phase := .exited (.signal signal) }

/-! ## The processes of the system -/

/-- What the table has at first. -/
theorem start_get (monitorPid servicePid pid : Pid) :
    (Session.start monitorPid servicePid).processes[pid]?
      = if servicePid = pid then some ⟨servicePid, monitorPid, false⟩
        else if monitorPid = pid then some ⟨monitorPid, monitorPid, false⟩ else none := by
  have hofList : (Session.start monitorPid servicePid).processes
      = ((∅ : Table).insert monitorPid ⟨monitorPid, monitorPid, false⟩).insert servicePid
          ⟨servicePid, monitorPid, false⟩ := rfl
  rw [hofList, Std.ExtTreeMap.getElem?_insert, Std.ExtTreeMap.getElem?_insert]
  simp

/-- At first the monitor and the service are in the table. -/
theorem start_table {monitorPid servicePid : Pid} (hne : monitorPid ≠ servicePid) :
    (Session.start monitorPid servicePid).processes[monitorPid]?
        = some ⟨monitorPid, monitorPid, false⟩
      ∧ (Session.start monitorPid servicePid).processes[servicePid]?
        = some ⟨servicePid, monitorPid, false⟩ := by
  rw [start_get, start_get, if_neg hne.symm, if_pos rfl, if_pos rfl]
  exact ⟨rfl, rfl⟩

/-- At first every process is in the monitor's session. -/
theorem start_coherent (monitorPid servicePid : Pid) :
    ProcessTable.Coherent (Session.start monitorPid servicePid).processes := by
  have hsession : ∀ (pid : Pid) process,
      (Session.start monitorPid servicePid).processes[pid]? = some process →
        process.session = monitorPid := by
    intro pid process hget
    rw [start_get] at hget
    split_ifs at hget <;> cases hget <;> rfl
  intro p q a b ha hb _
  rw [hsession p a ha, hsession q b hb]

/-! ## The encoding of the commands -/

/-- The numbers of one byte come back from it. -/
theorem castSigned8_castUnsigned8 {x : Int} (h0 : 0 ≤ x) (h1 : x < 128) :
    castSigned8 (castUnsigned8 x) = x := by
  have hnat : (castUnsigned8 x).toNat = x.toNat := by
    show (UInt8.ofNat (x % 256).toNat).toNat = x.toNat
    rw [UInt8.toNat_ofNat', Int.emod_eq_of_lt h0 (by omega)]
    exact Nat.mod_eq_of_lt (by omega)
  rw [castSigned8]
  rw [hnat, if_pos (by omega)]
  omega

/-- Every command that is sent is decoded as it was encoded. -/
theorem de_ser {cmd : MonitorCommand} (h : Sendable cmd) {byte : UInt8} (hbyte : cmd.ser = .ok byte) :
    MonitorCommand.de byte = .ok cmd := by
  cases cmd with
  | foreground => cases hbyte; rfl
  | background => cases hbyte; rfl
  | signal sig =>
      obtain ⟨h0, h1⟩ := h
      rw [ser_signal_ok h0 h1] at hbyte
      cases hbyte
      have hsame := castSigned8_castUnsigned8 (Int.le_of_lt h0) (by omega : sig < 128)
      rw [MonitorCommand.de]
      rw [hsame, if_neg (by omega), if_neg (by omega), if_pos (by omega)]

/-- Every command that is sent can be encoded. -/
theorem ser_sendable {cmd : MonitorCommand} (h : Sendable cmd) : ∃ byte, cmd.ser = .ok byte := by
  cases cmd with
  | foreground => exact ⟨_, rfl⟩
  | background => exact ⟨_, rfl⟩
  | signal sig => exact ⟨_, ser_signal_ok h.1 h.2⟩

end BeamMonitorLoop
