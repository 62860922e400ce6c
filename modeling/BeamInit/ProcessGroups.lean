import BeamInit.MonitorLoop
import BeamInit.NoPanic
import BeamInit.Refusals

/-! # Process groups — whom a signal to a service reaches

    A service starts as the leader of its own process group, and a signal to the
    service is a signal to that group.  Its processes may move between the groups
    of their session, and stay in the group they are in when they end, until they
    are waited for.  Without a PTY the signal is sent by beam-init, which falls
    back to the process itself if the group is empty; with one, by the monitor,
    which does not. -/

namespace BeamProcessGroups

open BeamApi BeamOs BeamService BeamMonitorLoop
open BeamNoPanic (MonitorPipes send_ok)
open BeamRefusals (ok_of_toOption)
open ProcessTable (Table members alive mem_members alive_iff)

/-! ## Signals and groups -/

/-- "No such process". -/
def noSuchProcess : IoError := ⟨.other, some ESRCH, "No such process (os error 3)"⟩

/-- `libc::kill`: the processes that take the signal, or ESRCH if none is found. -/
def kill (processes : Table) (pid : Pid) : Except IoError (List Pid) :=
  (ProcessTable.kill processes pid).mapError (fun _ => noSuchProcess)

/-- `kill_process_group`, with the processes that are signalled. -/
def killProcessGroup (processes : Table) (pgid : Pid) : Except Panic (Except IoError (List Pid)) :=
  if pgid > 1 then
    match kill processes (-pgid) with
    | .error e =>
        if e.rawOsError = some ESRCH then
          -- The process moved to another process group, only kill the single process.
          .ok (kill processes pgid)
        else .ok (.error e)
    | .ok signalled => .ok (.ok signalled)
  else .error (.assertion s!"process group {pgid} is not valid")

theorem kill_group (processes : Table) {pgid : Pid} (h : 1 < pgid) :
    kill processes (-pgid)
      = if members processes pgid = [] then .error noSuchProcess
        else .ok ((members processes pgid).filter (alive processes)) := by
  rw [kill, ProcessTable.kill_group processes (Int.lt_trans Int.zero_lt_one h)]
  split_ifs <;> rfl

theorem kill_process {processes : Table} {pid : Pid} (h : 1 < pid)
    (hlive : alive processes pid = true) : kill processes pid = .ok [pid] := by
  rw [kill, ProcessTable.kill_process (Int.lt_trans Int.zero_lt_one h) hlive]
  rfl

/-- A live process is signalled through its group, or alone if no process is in the
    group. -/
theorem killProcessGroup_live {processes : Table} {pgid : Pid} (h : 1 < pgid)
    (hlive : alive processes pgid = true) :
    killProcessGroup processes pgid
      = .ok (.ok (if members processes pgid = [] then [pgid]
          else (members processes pgid).filter (alive processes))) := by
  rw [killProcessGroup, if_pos h, kill_group processes h]
  by_cases hempty : members processes pgid = []
  · rw [if_pos hempty, if_pos hempty]
    dsimp only
    rw [if_pos (show noSuchProcess.rawOsError = some ESRCH from rfl), kill_process h hlive]
  · rw [if_neg hempty, if_neg hempty]

/-! ## A service and its processes -/

/-- A running service: the process that was exec'ed, the monitor it runs under if it
    has a PTY, and the processes of the system. -/
structure Tree where
  servicePid : Pid
  monitor : Option Pid
  run : Nat
  processes : Table
  /-- Pid 1 is beam-init. -/
  one_lt_servicePid : 1 < servicePid

namespace Tree

/-- What `spawn_service` returned: with a PTY, the pid is the monitor's. -/
def process (t : Tree) : ServiceProcess where
  mainPid := t.monitor.getD t.servicePid
  monitorTx := t.monitor.map (fun monitor => ⟨monitor⟩)
  run := t.run

/-- The calls of an arm of the monitor: the processes they signal, and whether the
    monitor gets to the acknowledgement.  A call that fails ends it. -/
def execute (t : Tree) (monitor : Pid) : List Syscall → List (Pid × Int) × Bool
  | [] => ([], true)
  | .killpg signal :: calls =>
      match (Syscall.killpg signal).perform t.processes monitor t.servicePid with
      | .error _ => ([], false)
      | .ok signalled =>
          (signalled.map (·, signal) ++ (t.execute monitor calls).1, (t.execute monitor calls).2)
  | .tcsetpgrp leader :: calls =>
      match (Syscall.tcsetpgrp leader).perform t.processes monitor t.servicePid with
      | .error _ => ([], false)
      | .ok _ => t.execute monitor calls

/-- The monitor reads a command byte. -/
def receive (t : Tree) (monitor : Pid) (byte : UInt8) : List (Pid × Int) × Bool :=
  match MonitorCommand.de byte with
  | .error _ => ([], false)
  | .ok cmd => t.execute monitor (handle cmd)

/-- What a system call returns to a caller that is not told whom it signalled. -/
def answer {α : Type} : Except IoError α → Option IoError
  | .ok _ => none
  | .error e => some e

/-- The system as beam-init sees it: `kill` acts on the table, a monitor that has
    exited gives EPIPE, and one that exits on a command EOF. -/
def os (t : Tree) (base : Os) : Os :=
  { base with
    kill := fun pid _ => answer (kill t.processes pid)
    monitorWrite := fun monitor _ =>
      if alive t.processes monitor = true then none
      else some ⟨.brokenPipe, some 32, "Broken pipe (os error 32)"⟩
    monitorRead := fun monitor byte =>
      if (t.receive monitor byte).2 = true then none
      else some ⟨.unexpectedEof, none, "failed to fill whole buffer"⟩ }

/-- `ServiceProcess::send_signal`, with the processes that are signalled. -/
def sendSignal (t : Tree) (signal : Int) : Except Panic (List (Pid × Int)) :=
  match t.monitor with
  | some monitor => do
      let byte ← (MonitorCommand.signal signal).ser
      return if alive t.processes monitor = true then (t.receive monitor byte).1 else []
  | none => do
      let signalled ← expect "process to exist" (← killProcessGroup t.processes t.servicePid)
      return signalled.map (·, signal)

/-! ### The answers of the system -/

theorem os_killProcessGroup (t : Tree) (base : Os) (pgid signal : Int) :
    BeamOs.killProcessGroup (t.os base) pgid signal
      = (killProcessGroup t.processes pgid).map (Except.map fun _ => ()) := by
  rw [BeamOs.killProcessGroup, killProcessGroup]
  by_cases hpgid : pgid > 1
  · rw [if_pos hpgid, if_pos hpgid]
    have hkill : ∀ pid, (t.os base).kill pid signal = answer (kill t.processes pid) := fun _ => rfl
    rw [hkill, hkill]
    cases kill t.processes (-pgid) with
    | ok signalled => rfl
    | error e =>
        rw [answer]
        dsimp only
        split_ifs
        · cases kill t.processes pgid <;> rfl
        · rfl
  · rw [if_neg hpgid, if_neg hpgid]
    rfl

/-- What goes wrong with a command is that the monitor has exited, before or on it. -/
theorem os_pipes (t : Tree) (base : Os) : MonitorPipes (t.os base) where
  write pid byte e he := by
    change (if alive t.processes pid = true then none else some _) = some e at he
    split_ifs at he
    rw [← Option.some.inj he]
  read pid byte e he := by
    change (if (t.receive pid byte).2 = true then none else some _) = some e at he
    split_ifs at he
    rw [← Option.some.inj he]

/-- The manager's `send_signal` is the one that is traced here: it returns, or
    panics, alike. -/
theorem process_sendSignal (t : Tree) (base : Os) (signal : Int) :
    t.process.sendSignal (t.os base) signal = (t.sendSignal signal).map fun _ =>
      [if t.monitor.isSome then .monitor t.process (.signal signal) else .kill t.process signal] := by
  rw [ServiceProcess.sendSignal, sendSignal]
  cases hmonitor : t.monitor with
  | none =>
      have hpid : t.process.mainPid = t.servicePid := by rw [process, hmonitor]; rfl
      have htx : t.process.monitorTx = none := by rw [process, hmonitor]; rfl
      rw [htx]
      dsimp only
      rw [hpid, os_killProcessGroup]
      cases killProcessGroup t.processes t.servicePid with
      | error panic => rfl
      | ok killed => cases killed <;> rfl
  | some monitor =>
      have htx : t.process.monitorTx = some ⟨monitor⟩ := by rw [process, hmonitor]; rfl
      rw [htx]
      dsimp only
      cases hbyte : (MonitorCommand.signal signal).ser with
      | error panic =>
          rw [MonitorCommandSender.send, hbyte]
          rfl
      | ok byte =>
          rw [send_ok (t.os_pipes base) _ hbyte]
          rfl

/-! ### Who is reached -/

end Tree

/-- The signals of Linux; the real-time ones among them never reach the manager. -/
def IsSignal (signal : Int) : Prop := 0 < signal ∧ signal ≤ 64

theorem de_ser_signal {signal : Int} (h : IsSignal signal) :
    ∃ byte, (MonitorCommand.signal signal).ser = .ok byte
      ∧ MonitorCommand.de byte = .ok (.signal signal) := by
  obtain ⟨hpos, hle⟩ := h
  have hmod : signal % 2 ^ 32 = signal := Int.emod_eq_of_lt (by omega) (by omega)
  refine ⟨castUnsigned8 signal, ?_, ?_⟩
  · rw [MonitorCommand.ser, hmod, if_pos (by omega)]
  · rw [MonitorCommand.de, castSigned8_castUnsigned8 (by omega) (by omega), if_neg (by omega),
      if_neg (by omega), if_pos (by omega)]

namespace Tree

/-- Without a monitor: the group, or the process if the group is empty. -/
theorem sendSignal_none {t : Tree} (hmonitor : t.monitor = none)
    (hlive : alive t.processes t.servicePid = true) (signal : Int) :
    t.sendSignal signal = .ok ((if members t.processes t.servicePid = [] then [t.servicePid]
      else (members t.processes t.servicePid).filter (alive t.processes)).map (·, signal)) := by
  rw [sendSignal, hmonitor]
  dsimp only
  rw [killProcessGroup_live t.one_lt_servicePid hlive]
  rfl

/-- With a monitor: the group, if the monitor still runs. -/
theorem sendSignal_some {t : Tree} {monitor : Pid} (hmonitor : t.monitor = some monitor)
    {signal : Int} (h : IsSignal signal) :
    t.sendSignal signal = .ok (if alive t.processes monitor = true
      then ((members t.processes t.servicePid).filter (alive t.processes)).map (·, signal)
      else []) := by
  obtain ⟨byte, hser, hde⟩ := de_ser_signal h
  have hreceive : (t.receive monitor byte).1
      = ((members t.processes t.servicePid).filter (alive t.processes)).map (·, signal) := by
    rw [receive, hde]
    show (t.execute monitor [.killpg signal]).1 = _
    rw [execute, Syscall.perform,
      ProcessTable.kill_group t.processes (Int.lt_trans Int.zero_lt_one t.one_lt_servicePid)]
    by_cases hempty : members t.processes t.servicePid = []
    · rw [if_pos hempty, hempty]
      rfl
    · rw [if_neg hempty]
      exact List.append_nil _
  rw [sendSignal, hmonitor]
  dsimp only
  rw [hser, ← hreceive]
  rfl

/-- The main process gets the signal that is sent to its service. -/
def Delivers (t : Tree) (signal : Int) : Prop :=
  ∃ signalled, t.sendSignal signal = .ok signalled ∧ (t.servicePid, signal) ∈ signalled

/-- The main process is in the process group it was started in. -/
def InOwnGroup (t : Tree) : Prop := t.servicePid ∈ members t.processes t.servicePid

/-- The main process is still in the group it was started in; or, without a monitor,
    no process is in that group, not even one that has ended and was not waited for.
    A monitor must be there to pass the signal on. -/
def InReach (t : Tree) : Prop :=
  match t.monitor with
  | none => t.InOwnGroup ∨ members t.processes t.servicePid = []
  | some monitor => alive t.processes monitor = true ∧ t.InOwnGroup

theorem mem_map_signal {signalled : List Pid} {pid : Pid} {signal : Int} :
    (pid, signal) ∈ signalled.map (·, signal) ↔ pid ∈ signalled := by
  rw [List.mem_map]
  constructor
  · rintro ⟨p, hp, heq⟩
    rwa [← (Prod.mk.inj heq).1]
  · intro hp
    exact ⟨pid, hp, rfl⟩

theorem delivers_eq {t : Tree} {signal : Int} {signalled : List (Pid × Int)}
    (h : t.sendSignal signal = .ok signalled) :
    t.Delivers signal ↔ (t.servicePid, signal) ∈ signalled := by
  constructor
  · rintro ⟨signalled', h', hmem⟩
    rwa [Except.ok.inj (h.symm.trans h')]
  · intro hmem
    exact ⟨signalled, h, hmem⟩

/-- The live main process is among those of a group that take a signal, if it is in
    the group. -/
theorem mem_takers {t : Tree} (hlive : alive t.processes t.servicePid = true) :
    t.servicePid ∈ (members t.processes t.servicePid).filter (alive t.processes) ↔ t.InOwnGroup := by
  rw [List.mem_filter, InOwnGroup]
  exact and_iff_left hlive

/-- **A SIGNAL TO A SERVICE REACHES ITS MAIN PROCESS** exactly while that process is in
    its own group, or alone outside it without a monitor. -/
theorem delivers_iff (t : Tree) (hlive : alive t.processes t.servicePid = true) (signal : Int)
    (hsignal : IsSignal signal) : t.Delivers signal ↔ t.InReach := by
  rw [InReach]
  cases hmonitor : t.monitor with
  | none =>
      rw [delivers_eq (sendSignal_none hmonitor hlive signal), mem_map_signal]
      dsimp only
      by_cases hempty : members t.processes t.servicePid = []
      · rw [if_pos hempty]
        exact iff_of_true (List.mem_singleton.mpr rfl) (.inr hempty)
      · rw [if_neg hempty, mem_takers hlive, or_iff_left hempty]
  | some monitor =>
      rw [delivers_eq (sendSignal_some hmonitor hsignal)]
      dsimp only
      by_cases hrunning : alive t.processes monitor = true
      · rw [if_pos hrunning, mem_map_signal, mem_takers hlive]
        exact (and_iff_right hrunning).symm
      · rw [if_neg hrunning]
        exact iff_of_false List.not_mem_nil fun h => hrunning h.1

/-- The main process is in its own group. -/
def settled : Tree :=
  ⟨100, none, 0, .ofList [(100, ⟨100, 98, false⟩), (101, ⟨100, 98, false⟩)] compare, by decide⟩

theorem delivers_iff_settled : settled.Delivers SIGTERM :=
  (settled.delivers_iff (by decide +kernel) SIGTERM ⟨by decide, by decide⟩).mpr
    (.inl (by rw [InOwnGroup]; decide +kernel))

/-- The main process has joined the group of a child, and another child is left in the
    group it led. -/
def movedAway : Tree := ⟨100, none, 0, .ofList [(100, ⟨102, 98, false⟩), (101, ⟨100, 98, false⟩),
  (102, ⟨102, 98, false⟩)] compare, by decide⟩

/-- The same, and the child that is left has ended; nobody has waited for it. -/
def movedFromZombie : Tree := ⟨100, none, 0, .ofList [(100, ⟨102, 98, false⟩),
  (101, ⟨100, 98, true⟩), (102, ⟨102, 98, false⟩)] compare, by decide⟩

/-- The same under a monitor, with no process left in the group. -/
def movedAwayTty : Tree := ⟨100, some 99, 0, .ofList [(99, ⟨99, 99, false⟩),
  (100, ⟨102, 99, false⟩), (102, ⟨102, 99, false⟩)] compare, by decide⟩

/-- A SIGTERM to the service reaches the child that was left behind, or nobody, and not
    the main process. -/
theorem moved_main_missed :
    movedAway.sendSignal SIGTERM = .ok [(101, SIGTERM)]
      ∧ movedFromZombie.sendSignal SIGTERM = .ok []
      ∧ movedAwayTty.sendSignal SIGTERM = .ok []
      ∧ ¬∀ (t : Tree) (signal : Int), alive t.processes t.servicePid = true → IsSignal signal →
        t.Delivers signal := by
  have hsent : movedAway.sendSignal SIGTERM = .ok [(101, SIGTERM)] :=
    ok_of_toOption (by decide +kernel)
  refine ⟨hsent, ok_of_toOption (by decide +kernel), ok_of_toOption (by decide +kernel), fun hall => ?_⟩
  have hdelivers := hall movedAway SIGTERM (by decide +kernel) ⟨by decide, by decide⟩
  rw [delivers_eq hsent] at hdelivers
  exact absurd hdelivers (by decide)

end Tree

end BeamProcessGroups
