import BeamInit.MonitorLoop

/-! # One command at a time — what beam-init and the monitor agree on

    A command that beam-init waits for is at one place: its byte is in the command
    pipe, or the monitor executes it, or its acknowledgement is in the other pipe,
    or the monitor has exited.  The invariant says so by accounts: what was sent
    is what was executed, what is being executed and what is queued, in this
    order; the acknowledgements in the pipe make up for the difference between
    what was executed and what was acknowledged; and the system calls made are
    those that the executed commands ask for. -/

namespace BeamMonitorProtocol

open BeamApi BeamOs BeamMonitorLoop Runs

/-! ## The invariant -/

/-- The command that the monitor executes. -/
def busy : Phase → List MonitorCommand
  | .executing cmd _ _ => [cmd]
  | _ => []

/-- The accounts of a monitor that runs. -/
structure Running (w : Session) : Prop where
  idle : w.caller = none → w.sent = w.acknowledged
  begun : w.begun = w.executed ++ busy w.phase
  queued : ∃ queued, w.sent = w.begun ++ queued ∧ (∀ cmd ∈ queued, Sendable cmd)
    ∧ queued.map MonitorCommand.ser = w.commands.map .ok

/-- **The invariant** of the two sides. -/
structure InStep (w : Session) : Prop where
  decoded : w.phase ≠ .aborted
  acks : w.acknowledged.length + w.acks.length = w.executed.length
  executed : w.executed <+: w.begun
  begun : w.begun <+: w.sent
  caller : ∀ cmd, w.caller = some cmd → w.sent = w.acknowledged ++ [cmd]
  running : ¬ w.Over → Running w

/-- At first nothing has been sent. -/
theorem inStep_start (monitorPid servicePid : Pid) : InStep (.start monitorPid servicePid) where
  decoded := nofun
  acks := rfl
  executed := List.prefix_refl _
  begun := List.prefix_refl _
  caller _ h := nomatch h
  running _ := ⟨fun _ => rfl, rfl, [], rfl, nofun, rfl⟩

/-- What the protocol sees of a session. -/
def wire (w : Session) :=
  (w.caller, w.commands, w.acks, w.sent, w.acknowledged, w.begun, w.executed)

/-- A step of the monitor that neither takes nor answers a command. -/
theorem InStep.move {w w' : Session} (h : InStep w) (hwire : wire w' = wire w)
    (hdecoded : w'.phase ≠ .aborted)
    (hphase : ¬ w'.Over → ¬ w.Over ∧ busy w'.phase = busy w.phase) : InStep w' := by
  simp only [wire, Prod.mk.injEq] at hwire
  obtain ⟨hcaller, hcommands, hacks, hsent, hacknowledged, hbegun, hexecuted⟩ := hwire
  refine ⟨hdecoded, ?_, ?_, ?_, ?_, fun hrun => ?_⟩
  · rw [hacknowledged, hacks, hexecuted]
    exact h.acks
  · rw [hexecuted, hbegun]
    exact h.executed
  · rw [hbegun, hsent]
    exact h.begun
  · rw [hcaller, hsent, hacknowledged]
    exact h.caller
  · obtain ⟨hrunning, hbusy⟩ := hphase hrun
    obtain ⟨hidle, hbegun', hqueued⟩ := h.running hrunning
    refine ⟨?_, ?_, ?_⟩
    · rw [hcaller, hsent, hacknowledged]
      exact hidle
    · rw [hbegun, hexecuted, hbusy]
      exact hbegun'
    · rw [hsent, hbegun, hcommands]
      exact hqueued

/-- A monitor that has neither exited nor aborted runs. -/
theorem not_over {w : Session} (hexited : ∀ exit, w.phase ≠ .exited exit)
    (haborted : w.phase ≠ .aborted) : ¬ w.Over := by
  rintro (⟨exit, h⟩ | h)
  · exact hexited exit h
  · exact haborted h

theorem not_over_of_phase {w : Session} {phase : Phase} (hphase : w.phase = phase)
    (hexited : ∀ exit, phase ≠ .exited exit) (haborted : phase ≠ .aborted) : ¬ w.Over := by
  subst hphase
  exact not_over hexited haborted

/-- A monitor in step runs as long as it has not exited. -/
theorem InStep.runs {w : Session} (h : InStep w) {phase : Phase} (hphase : w.phase = phase)
    (hexited : ∀ exit, phase ≠ .exited exit) : ¬ w.Over :=
  not_over_of_phase hphase hexited (hphase ▸ h.decoded)

/-- The same for a step between two phases in which the monitor runs. -/
theorem InStep.pass {w w' : Session} (h : InStep w) (hwire : wire w' = wire w)
    (hbusy : busy w'.phase = busy w.phase) (hrun : ¬ w.Over) (hdecoded : w'.phase ≠ .aborted) :
    InStep w' :=
  h.move hwire hdecoded fun _ => ⟨hrun, hbusy⟩

/-- The monitor may exit at any point. -/
theorem InStep.exit {w w' : Session} (h : InStep w) (hwire : wire w' = wire w)
    (hexit : ∃ exit, w'.phase = .exited exit) : InStep w' := by
  obtain ⟨exit, hexit⟩ := hexit
  refine h.move hwire ?_ fun hrun => absurd (Or.inl ⟨exit, hexit⟩) hrun
  rw [hexit]
  exact Phase.noConfusion

/-- An acknowledgement in the pipe is for the command beam-init waits for. -/
theorem InStep.answered {w : Session} (h : InStep w) {cmd : MonitorCommand} {ack : UInt8}
    {acks : List UInt8} (hcaller : w.caller = some cmd) (hacks : w.acks = ack :: acks) :
    acks = [] ∧ w.executed = w.sent ∧ w.begun = w.sent := by
  have hsent := congrArg List.length (h.caller cmd hcaller)
  have hlen := h.acks
  have hle := (h.executed.trans h.begun).length_le
  rw [List.length_append, List.length_singleton] at hsent
  rw [hacks, List.length_cons] at hlen
  have hexecuted : w.executed = w.sent :=
    (h.executed.trans h.begun).eq_of_length (by omega)
  refine ⟨List.length_eq_zero_iff.mp (by omega), hexecuted, ?_⟩
  exact h.begun.eq_of_length (Nat.le_antisymm h.begun.length_le
    (hexecuted ▸ h.executed.length_le))

/-! ## The step lemma -/

/-- A command is written while none is on its way. -/
theorem inStep_wrote {w : Session} (h : InStep w) {cmd : MonitorCommand} {byte : UInt8}
    (hcaller : w.caller = none) (hrun : ¬ w.Over) (hsend : Sendable cmd)
    (hbyte : cmd.ser = .ok byte) :
    InStep { w with
      caller := some cmd, commands := w.commands ++ [byte], sent := w.sent ++ [cmd] } := by
  obtain ⟨hidle, hbegun, queued, hsent, hqueued, hbytes⟩ := h.running hrun
  refine ⟨h.decoded, h.acks, h.executed, h.begun.trans (List.prefix_append _ _), ?_, fun _ => ?_⟩
  · intro cmd' heq
    cases heq
    show w.sent ++ [cmd] = w.acknowledged ++ [cmd]
    rw [hidle hcaller]
  · refine ⟨fun hnone => (nomatch hnone), hbegun, queued ++ [cmd], ?_, ?_, ?_⟩
    · show w.sent ++ [cmd] = _
      rw [hsent, List.append_assoc]
    · intro cmd' hmem
      rcases List.mem_append.mp hmem with hold | hnew
      · exact hqueued cmd' hold
      · exact List.mem_singleton.mp hnew ▸ hsend
    · rw [List.map_append, List.map_append, hbytes, List.map_singleton, hbyte]
      rfl

/-- With the acknowledgement nothing is on its way any more. -/
theorem inStep_returned {w : Session} (h : InStep w) {cmd : MonitorCommand} {ack : UInt8}
    {acks : List UInt8} (hcaller : w.caller = some cmd) (hacks : w.acks = ack :: acks) :
    InStep { w with caller := none, acks := acks, acknowledged := w.acknowledged ++ [cmd] } := by
  have hlen := h.acks
  rw [hacks, List.length_cons] at hlen
  refine ⟨h.decoded, ?_, h.executed, h.begun, fun _ heq => (nomatch heq), fun hrun => ?_⟩
  · show (w.acknowledged ++ [cmd]).length + acks.length = w.executed.length
    rw [List.length_append, List.length_singleton]
    omega
  · obtain ⟨-, hbegun, hqueued⟩ := h.running hrun
    exact ⟨fun _ => h.caller cmd hcaller, hbegun, hqueued⟩

/-- The byte at the front of the command pipe is a command as it was sent. -/
theorem InStep.front {w : Session} (h : InStep w) (hrun : ¬ w.Over) {byte : UInt8}
    {rest : List UInt8} (hcommands : w.commands = byte :: rest) :
    ∃ cmd queued, MonitorCommand.de byte = .ok cmd ∧ w.sent = w.begun ++ cmd :: queued
      ∧ (∀ cmd ∈ queued, Sendable cmd) ∧ queued.map MonitorCommand.ser = rest.map .ok := by
  obtain ⟨-, -, queued, hsent, hqueued, hbytes⟩ := h.running hrun
  rw [hcommands] at hbytes
  cases queued with
  | nil => exact nomatch hbytes
  | cons cmd queued =>
      obtain ⟨hbyte, hrest⟩ := List.cons.inj hbytes
      obtain ⟨hsend, hqueued⟩ := List.forall_mem_cons.mp hqueued
      exact ⟨cmd, queued, de_ser hsend hbyte, hsent, hqueued, hrest⟩

/-- The monitor reads the command that was written. -/
theorem inStep_read {w : Session} (h : InStep w) {cmd : MonitorCommand} {byte : UInt8}
    {rest : List UInt8} {revents : Revents} (hphase : w.phase = .command revents)
    (hcommands : w.commands = byte :: rest) (hde : MonitorCommand.de byte = .ok cmd) :
    InStep { w with
      phase := .executing cmd (handle cmd) revents, commands := rest, begun := w.begun ++ [cmd] } := by
  have hrun : ¬ w.Over := h.runs hphase fun _ => Phase.noConfusion
  obtain ⟨cmd', queued, hde', hsent, hqueued, hbytes⟩ := h.front hrun hcommands
  cases hde.symm.trans hde'
  obtain ⟨hidle, hbegun, -⟩ := h.running hrun
  rw [hphase, busy.eq_def, List.append_nil] at hbegun
  have hsent' : w.sent = (w.begun ++ [cmd]) ++ queued := by
    rw [hsent, List.append_assoc]
    rfl
  refine ⟨Phase.noConfusion, h.acks, h.executed.trans (List.prefix_append _ _), ?_, h.caller,
    fun _ => ⟨hidle, ?_, queued, hsent', hqueued, hbytes⟩⟩
  · show w.begun ++ [cmd] <+: w.sent
    exact hsent' ▸ List.prefix_append _ _
  · show w.begun ++ [cmd] = w.executed ++ [cmd]
    rw [hbegun]

/-- The acknowledgement follows the last call. -/
theorem inStep_acked {w : Session} (h : InStep w) {cmd : MonitorCommand} {revents : Revents}
    (hphase : w.phase = .executing cmd [] revents) :
    InStep { w with
      phase := .hangup revents, acks := w.acks ++ [0], executed := w.executed ++ [cmd] } := by
  have hrun : ¬ w.Over := h.runs hphase fun _ => Phase.noConfusion
  obtain ⟨hidle, hbegun, hqueued⟩ := h.running hrun
  rw [hphase] at hbegun
  have hlen := h.acks
  refine ⟨Phase.noConfusion, ?_, ?_, h.begun, h.caller, fun _ => ⟨hidle, ?_, hqueued⟩⟩
  · show w.acknowledged.length + (w.acks ++ [0]).length = (w.executed ++ [cmd]).length
    rw [List.length_append, List.length_append, List.length_singleton, List.length_singleton]
    omega
  · show w.executed ++ [cmd] <+: w.begun
    rw [hbegun]
    exact List.prefix_refl _
  · show w.begun = (w.executed ++ [cmd]) ++ []
    rw [hbegun, List.append_nil]
    rfl

/-- **The step lemma**: whatever either side does, they stay in step. -/
theorem inStep_step {w w' : Session} {move : SessionMove} (h : InStep w)
    (hstep : SessionStep w move w') : InStep w' := by
  cases hstep with
  | wrote hcaller _ hrun hsend hbyte => exact inStep_wrote h hcaller hrun hsend hbyte
  | brokenPipe _ _ _ _ | failed _ _ _ => exact h
  | returned hcaller hacks => exact inStep_returned h hcaller hacks
  | endOfFile _ _ hover =>
      exact ⟨h.decoded, h.acks, h.executed, h.begun, fun _ heq => (nomatch heq),
        fun hrun => absurd hover hrun⟩
  | read hphase _ hcommands hde => exact inStep_read h hphase hcommands hde
  | undecodable hphase _ hcommands hde =>
      obtain ⟨_, _, hde', -⟩ := h.front (h.runs hphase fun _ => Phase.noConfusion) hcommands
      exact nomatch hde.symm.trans hde'
  | acked hphase _ => exact inStep_acked h hphase
  | called hphase _ =>
      exact h.pass rfl (by rw [hphase]; rfl) (h.runs hphase fun _ => Phase.noConfusion)
        Phase.noConfusion
  | polled hphase _ | noCommand hphase _ | hungUp hphase | signalled hphase _ | noSignal hphase _
  | nobody hphase _ _ =>
      exact h.pass rfl (by rw [hphase]; rfl) (h.runs hphase fun _ => Phase.noConfusion)
        Phase.noConfusion
  | callFailed _ _ | ackFailed _ _ | noChild _ _ _ | killed _ => exact h.exit rfl ⟨_, rfl⟩
  | @waited pid status hphase _ =>
      by_cases hpid : pid ≠ w.servicePid
      · rw [if_pos hpid]
        exact h.pass rfl (by rw [hphase]) (h.runs hphase fun _ => Phase.noConfusion)
          Phase.noConfusion
      · rw [if_neg hpid]
        exact h.exit rfl ⟨_, rfl⟩
  | dropped _ | childExited _ _ | regrouped _ => exact h.move rfl h.decoded fun hrun => ⟨hrun, rfl⟩

/-- **The two sides stay in step** in every run. -/
theorem inStep_run {monitorPid servicePid : Pid} {w : Session} {moves : List SessionMove}
    (h : Run SessionStep (.start monitorPid servicePid) moves w) : InStep w :=
  h.invariant inStep_step (inStep_start monitorPid servicePid)

/-- While the monitor executes a command, beam-init waits for it. -/
theorem InStep.caller_of_executing {w : Session} (h : InStep w) {cmd : MonitorCommand}
    {calls : List Syscall} {revents : Revents} (hphase : w.phase = .executing cmd calls revents) :
    w.caller ≠ none := by
  intro hcaller
  have hrun : ¬ w.Over := h.runs hphase fun _ => Phase.noConfusion
  obtain ⟨hidle, hbegun, -⟩ := h.running hrun
  have hlen := h.begun.length_le
  have hacks := h.acks
  rw [hbegun, hphase, List.length_append, hidle hcaller] at hlen
  have : (busy (.executing cmd calls revents)).length = 1 := rfl
  omega

/-! ## The calls the monitor makes -/

/-- What a command asks of the monitor: a signal to the group of the service; that
    group in the foreground, and running; or that group stopped, and the monitor
    in the foreground. -/
def demanded : MonitorCommand → List Syscall
  | .signal sig => [.killpg sig]
  | .foreground => [.tcsetpgrp .service, .killpg SIGCONT]
  | .background => [.killpg SIGTSTP, .tcsetpgrp .monitor]

/-- The arms of the loop make the calls their commands ask for. -/
theorem handle_eq (cmd : MonitorCommand) : handle cmd = demanded cmd := by
  cases cmd <;> rfl

/-- The calls that are left to make in an arm. -/
def toGo : Phase → List Syscall
  | .executing _ calls _ => calls
  | _ => []

/-- What `poll` returned for this turn of the loop. -/
def polledIn : Phase → Option Revents
  | .command revents | .executing _ _ revents | .hangup revents | .signals revents => some revents
  | _ => none

/-- **The calls made** are those that the executed commands ask for, in this order,
    and then those made so far for the command in progress.  A hangup of beam-init,
    which comes after the last command, adds a SIGKILL at each turn. -/
def Performed (w : Session) : Prop :=
  ∃ made kills, w.calls = w.executed.flatMap demanded ++ made ++ List.replicate kills (.killpg SIGKILL)
    ∧ made <+: (w.begun.drop w.executed.length).flatMap demanded
    ∧ (¬ w.Over → made ++ toGo w.phase = (busy w.phase).flatMap demanded)
    ∧ (kills ≠ 0 → w.dropped = true)

structure Performing (w : Session) : Prop where
  dropped : w.dropped = true → w.caller = none
  hangup : ∀ revents, polledIn w.phase = some revents → revents.hangup = true → w.dropped = true
  performed : Performed w

/-- At first no call has been made. -/
theorem performing_start (monitorPid servicePid : Pid) :
    Performing (.start monitorPid servicePid) where
  dropped h := nomatch h
  hangup _ h := nomatch h
  performed := ⟨[], 0, rfl, List.nil_prefix, fun _ => rfl, fun h => absurd rfl h⟩

/-- A step that makes no call and neither takes nor answers a command. -/
theorem Performed.move {w w' : Session} (h : Performed w) (hcalls : w'.calls = w.calls)
    (hexecuted : w'.executed = w.executed) (hbegun : w'.begun = w.begun)
    (hdropped : w.dropped = true → w'.dropped = true)
    (hphase : ¬ w'.Over → ¬ w.Over ∧ toGo w'.phase = toGo w.phase ∧ busy w'.phase = busy w.phase) :
    Performed w' := by
  obtain ⟨made, kills, hmade, hprefix, hleft, hkills⟩ := h
  refine ⟨made, kills, ?_, ?_, fun hrun => ?_, fun hne => hdropped (hkills hne)⟩
  · rw [hcalls, hexecuted]
    exact hmade
  · rw [hbegun, hexecuted]
    exact hprefix
  · obtain ⟨hrunning, htoGo, hbusy⟩ := hphase hrun
    rw [htoGo, hbusy]
    exact hleft hrunning

/-- Outside the arms no command is in progress. -/
theorem Performed.idle {w : Session} (h : Performed w) (hrun : ¬ w.Over)
    (hbusy : busy w.phase = []) :
    ∃ kills, w.calls = w.executed.flatMap demanded ++ List.replicate kills (.killpg SIGKILL)
      ∧ (kills ≠ 0 → w.dropped = true) := by
  obtain ⟨made, kills, hmade, -, hleft, hkills⟩ := h
  have hnil : made = [] := by
    have hall := hleft hrun
    rw [hbusy, List.flatMap_nil] at hall
    exact (List.append_eq_nil_iff.mp hall).1
  rw [hnil, List.append_nil] at hmade
  exact ⟨kills, hmade, hkills⟩

/-- In an arm nothing has hung up. -/
theorem Performing.inArm {w : Session} (h : Performing w) (hin : InStep w) {cmd : MonitorCommand}
    {calls : List Syscall} {revents : Revents} (hphase : w.phase = .executing cmd calls revents) :
    ∃ made, w.calls = w.executed.flatMap demanded ++ made ∧ made ++ calls = demanded cmd := by
  have hrun : ¬ w.Over := hin.runs hphase fun _ => Phase.noConfusion
  obtain ⟨made, kills, hmade, -, hleft, hkills⟩ := h.performed
  have hnone : kills = 0 := by
    by_contra hne
    exact hin.caller_of_executing hphase (h.dropped (hkills hne))
  rw [hnone, List.replicate_zero, List.append_nil] at hmade
  have hall := hleft hrun
  rw [hphase] at hall
  refine ⟨made, hmade, hall.trans ?_⟩
  exact List.append_nil _

/-- A command that is read has all its calls to go. -/
theorem performed_read {w : Session} (h : Performing w) (hin : InStep w) {cmd : MonitorCommand}
    {rest : List UInt8} {revents : Revents} (hphase : w.phase = .command revents) :
    Performed { w with
      phase := .executing cmd (handle cmd) revents, commands := rest, begun := w.begun ++ [cmd] } := by
  have hrun : ¬ w.Over := hin.runs hphase fun _ => Phase.noConfusion
  obtain ⟨kills, hmade, hkills⟩ := h.performed.idle hrun (by rw [hphase]; rfl)
  refine ⟨[], kills, ?_, List.nil_prefix, fun _ => ?_, hkills⟩
  · rw [List.append_nil]
    exact hmade
  · show handle cmd = demanded cmd ++ []
    rw [handle_eq, List.append_nil]

/-- A call that succeeds is the next one of its command. -/
theorem performed_called {w : Session} (h : Performing w) (hin : InStep w) {cmd : MonitorCommand}
    {call : Syscall} {calls : List Syscall} {revents : Revents}
    (hphase : w.phase = .executing cmd (call :: calls) revents) :
    Performed { w with
      phase := .executing cmd calls revents, calls := w.calls ++ [call] } := by
  obtain ⟨made, hmade, hall⟩ := h.inArm hin hphase
  have hmore : (made ++ [call]) ++ calls = demanded cmd := by
    rw [List.append_assoc]
    exact hall
  have hbegun := ((hin.running (hin.runs hphase fun _ => Phase.noConfusion)).begun)
  refine ⟨made ++ [call], 0, ?_, ?_, fun _ => ?_, fun hne => absurd rfl hne⟩
  · show w.calls ++ [call] = _
    rw [hmade, List.replicate_zero, List.append_nil, List.append_assoc]
  · show made ++ [call] <+: (w.begun.drop w.executed.length).flatMap demanded
    rw [hbegun, hphase, List.drop_left]
    exact ⟨calls, hmore.trans (List.append_nil _).symm⟩
  · exact hmore.trans (List.append_nil _).symm

/-- An acknowledged command has made all its calls. -/
theorem performed_acked {w : Session} (h : Performing w) (hin : InStep w) {cmd : MonitorCommand}
    {revents : Revents} (hphase : w.phase = .executing cmd [] revents) :
    Performed { w with
      phase := .hangup revents, acks := w.acks ++ [0], executed := w.executed ++ [cmd] } := by
  obtain ⟨made, hmade, hall⟩ := h.inArm hin hphase
  rw [List.append_nil] at hall
  refine ⟨[], 0, ?_, List.nil_prefix, fun _ => rfl, fun hne => absurd rfl hne⟩
  show w.calls = (w.executed ++ [cmd]).flatMap demanded ++ [] ++ []
  rw [hmade, List.flatMap_append, List.flatMap_singleton, List.append_nil, List.append_nil, hall]

/-- The SIGKILL of a hangup comes after all the commands. -/
theorem performed_hungUp {w : Session} (h : Performing w) (hin : InStep w) {revents : Revents}
    (hphase : w.phase = .hangup revents) :
    Performed { w with
      phase := .signals revents
      calls := if revents.hangup ∧ w.succeeds (.killpg SIGKILL) then
        w.calls ++ [.killpg SIGKILL] else w.calls } := by
  have hrun : ¬ w.Over := hin.runs hphase fun _ => Phase.noConfusion
  obtain ⟨kills, hmade, hkills⟩ := h.performed.idle hrun (by rw [hphase]; rfl)
  by_cases hkill : revents.hangup = true ∧ w.succeeds (.killpg SIGKILL) = true
  · refine ⟨[], kills + 1, ?_, List.nil_prefix, fun _ => rfl, fun _ => ?_⟩
    · show (if _ then _ else _) = _
      rw [if_pos hkill, hmade, List.append_nil, List.append_assoc, ← List.replicate_succ']
    · exact h.hangup revents (by rw [hphase]; rfl) hkill.1
  · refine ⟨[], kills, ?_, List.nil_prefix, fun _ => rfl, hkills⟩
    show (if _ then _ else _) = _
    rw [if_neg hkill, List.append_nil]
    exact hmade

/-- Every step keeps the calls in order. -/
theorem performed_step {w w' : Session} {move : SessionMove} (h : Performing w) (hin : InStep w)
    (hstep : SessionStep w move w') : Performed w' := by
  -- a step between two phases outside the arms
  have hpass : ∀ {w' : Session} {phase : Phase}, w.phase = phase → (∀ exit, phase ≠ .exited exit) →
      busy phase = [] → toGo phase = [] → w'.calls = w.calls → w'.executed = w.executed →
      w'.begun = w.begun → w'.dropped = w.dropped →
      (¬ w'.Over → toGo w'.phase = [] ∧ busy w'.phase = []) → Performed w' := by
    intro w' phase hphase hexited hbusy htoGo hcalls hexecuted hbegun hdropped hafter
    refine h.performed.move hcalls hexecuted hbegun (fun hd => hdropped.trans hd) fun hrun => ?_
    obtain ⟨htoGo', hbusy'⟩ := hafter hrun
    rw [hphase, hbusy, htoGo]
    exact ⟨hin.runs hphase hexited, htoGo', hbusy'⟩
  cases hstep with
  | wrote _ _ _ _ _ | returned _ _ | endOfFile _ _ _ | childExited _ _ | regrouped _ =>
      exact h.performed.move rfl rfl rfl id fun hrun => ⟨hrun, rfl, rfl⟩
  | brokenPipe _ _ _ _ | failed _ _ _ => exact h.performed
  | dropped _ => exact h.performed.move rfl rfl rfl (fun _ => rfl) fun hrun => ⟨hrun, rfl, rfl⟩
  | read hphase _ _ _ => exact performed_read h hin hphase
  | called hphase _ => exact performed_called h hin hphase
  | acked hphase _ => exact performed_acked h hin hphase
  | hungUp hphase => exact performed_hungUp h hin hphase
  | callFailed _ _ | ackFailed _ _ | noChild _ _ _ | killed _ =>
      exact h.performed.move rfl rfl rfl id fun hrun => absurd (Or.inl ⟨_, rfl⟩) hrun
  | undecodable _ _ _ _ =>
      exact h.performed.move rfl rfl rfl id fun hrun => absurd (Or.inr rfl) hrun
  | polled hphase _ | noCommand hphase _ | signalled hphase _ | noSignal hphase _
  | nobody hphase _ _ =>
      exact hpass hphase (fun _ => Phase.noConfusion) rfl rfl rfl rfl rfl rfl fun _ => ⟨rfl, rfl⟩
  | @waited pid status hphase _ =>
      refine hpass hphase (fun _ => Phase.noConfusion) rfl rfl rfl rfl rfl rfl fun _ => ?_
      by_cases hpid : pid ≠ w.servicePid
      · show toGo (if _ then _ else _) = [] ∧ busy (if _ then _ else _) = []
        rw [if_pos hpid]
        exact ⟨rfl, rfl⟩
      · show toGo (if _ then _ else _) = [] ∧ busy (if _ then _ else _) = []
        rw [if_neg hpid]
        exact ⟨rfl, rfl⟩

/-- **Every step** makes only the calls that are asked for. -/
theorem performing_step {w w' : Session} {move : SessionMove} (h : Performing w) (hin : InStep w)
    (hstep : SessionStep w move w') : Performing w' := by
  have hperformed := performed_step h hin hstep
  -- a later phase of the same turn
  have hsame : ∀ {revents : Revents} {phase : Phase}, w.phase = phase →
      polledIn phase = some revents → ∀ revents', some revents = some revents' →
      revents'.hangup = true → w.dropped = true := by
    rintro revents phase rfl hpolled revents' heq hhangup
    exact h.hangup revents' (hpolled.trans heq) hhangup
  cases hstep with
  | wrote _ hopen _ _ _ => exact ⟨fun hd => (nomatch hopen.symm.trans hd), h.hangup, hperformed⟩
  | brokenPipe _ _ _ _ | failed _ _ _ => exact h
  | returned _ _ | endOfFile _ _ _ => exact ⟨fun _ => rfl, h.hangup, hperformed⟩
  | dropped hcaller => exact ⟨fun _ => hcaller, fun _ _ _ => rfl, hperformed⟩
  | polled _ hpolls =>
      refine ⟨h.dropped, fun revents heq hhangup => ?_, hperformed⟩
      cases heq
      exact hpolls.hangup hhangup
  | read hphase _ _ _ | noCommand hphase _ | called hphase _ | acked hphase _ | hungUp hphase =>
      exact ⟨h.dropped, hsame hphase rfl, hperformed⟩
  | undecodable _ _ _ _ | callFailed _ _ | ackFailed _ _ | signalled _ _ | noSignal _ _
  | nobody _ _ _ | noChild _ _ _ | killed _ =>
      exact ⟨h.dropped, fun _ heq => (nomatch heq), hperformed⟩
  | childExited _ _ | regrouped _ => exact ⟨h.dropped, h.hangup, hperformed⟩
  | @waited pid status _ _ =>
      refine ⟨h.dropped, fun revents heq => ?_, hperformed⟩
      change polledIn (if _ then _ else _) = some revents at heq
      by_cases hpid : pid ≠ w.servicePid
      · rw [if_pos hpid] at heq
        cases heq
      · rw [if_neg hpid] at heq
        cases heq

/-- The same for a run. -/
theorem performing_run {monitorPid servicePid : Pid} {w : Session} {moves : List SessionMove}
    (h : Run SessionStep (.start monitorPid servicePid) moves w) : Performing w :=
  (h.invariant (I := fun w => InStep w ∧ Performing w)
    (fun hI hstep => ⟨inStep_step hI.1 hstep, performing_step hI.2 hI.1 hstep⟩)
    ⟨inStep_start monitorPid servicePid, performing_start monitorPid servicePid⟩).2

/-! ## What both sides can rely on -/

/-- The sends that return `Ok`, by how they end. -/
def ReturnsOk (cmd : MonitorCommand) : SessionMove → Prop
  | .brokenPipe c | .returned c | .endOfFile c => c = cmd
  | _ => False

/-- Where the command is that beam-init waits for. -/
inductive Whereabouts (w : Session) (cmd : MonitorCommand) : Prop where
  | queued {byte : UInt8} : cmd.ser = .ok byte → w.commands = [byte] → Whereabouts w cmd
  | executing {calls : List Syscall} {revents : Revents} :
      w.phase = .executing cmd calls revents → Whereabouts w cmd
  | acknowledged {ack : UInt8} : w.acks = [ack] → Whereabouts w cmd
  | exited : w.Over → Whereabouts w cmd

/-- The command beam-init waits for is in one of the places. -/
theorem InStep.whereabouts {w : Session} (h : InStep w) {cmd : MonitorCommand}
    (hcaller : w.caller = some cmd) : Whereabouts w cmd := by
  by_cases hover : w.Over
  · exact .exited hover
  obtain ⟨-, hbegun, queued, hsent, -, hbytes⟩ := h.running hover
  cases hacks : w.acks with
  | cons ack acks =>
      obtain ⟨rfl, -, -⟩ := h.answered hcaller hacks
      exact .acknowledged hacks
  | nil =>
      -- one command has been sent and not executed: it is being executed, or queued
      have hlen := h.acks
      rw [hacks, List.length_nil, Nat.add_zero] at hlen
      have hprefix : w.acknowledged <+: w.sent := h.caller cmd hcaller ▸ List.prefix_append _ _
      have hexecuted : w.executed = w.acknowledged :=
        (List.prefix_of_prefix_length_le (h.executed.trans h.begun) hprefix
          (Nat.le_of_eq hlen.symm)).eq_of_length hlen.symm
      have hone : busy w.phase ++ queued = [cmd] := by
        have hall := h.caller cmd hcaller
        rw [hsent, hbegun, hexecuted, List.append_assoc] at hall
        exact List.append_cancel_left hall
      cases hphase : w.phase with
      | executing cmd' calls revents =>
          rw [hphase] at hone
          obtain rfl := (List.cons.inj hone).1
          exact .executing hphase
      | polling | command _ | hangup _ | signals _ | waiting | exited _ | aborted =>
          rw [hphase] at hone
          obtain rfl : queued = [cmd] := hone
          cases hcommands : w.commands with
          | nil => rw [hcommands] at hbytes; exact nomatch hbytes
          | cons byte rest =>
              rw [hcommands] at hbytes
              obtain ⟨hbyte, hrest⟩ := List.cons.inj hbytes
              have hnil : rest = [] := List.map_eq_nil_iff.mp hrest.symm
              exact .queued hbyte (hnil ▸ hcommands)

/-- The guarantees of the protocol in one state. -/
structure OneAtATime (w : Session) : Prop where
  /-- At most one command is unacknowledged, and none when a send starts. -/
  unacknowledged : ¬ w.Over → w.sent = w.acknowledged ++ w.caller.toList
  /-- The commands are executed in the order sent, each at most once, and decoded
      as they were encoded. -/
  order : w.executed <+: w.begun ∧ w.begun <+: w.sent
  decodable : w.phase ≠ .aborted
  /-- An executed command is one whose system calls have been made. -/
  performed : Performed w
  /-- A send returns `Ok` after its command was executed and acknowledged, or
      after the monitor has exited. -/
  returns : ∀ move w' cmd, SessionStep w move w' → ReturnsOk cmd move →
    w.executed = w.sent ∧ w.sent.getLast? = some cmd ∧ w'.acknowledged = w.sent ∨ w.Over
  whereabouts : ∀ cmd, w.caller = some cmd → Whereabouts w cmd
  /-- The read ends once there is an acknowledgement or the monitor has exited. -/
  ends : ∀ cmd, w.caller = some cmd → w.acks ≠ [] ∨ w.Over →
    ∃ move w', ReturnsOk cmd move ∧ SessionStep w move w' ∧ w'.caller = none

/-- **HEADLINE.** Whatever beam-init sends and whenever the monitor exits, the two
    sides keep to one command at a time. -/
theorem one_command_at_a_time {monitorPid servicePid : Pid} {w : Session}
    {moves : List SessionMove} (h : Run SessionStep (.start monitorPid servicePid) moves w) :
    OneAtATime w := by
  have hin := inStep_run h
  refine ⟨fun hrun => ?_, ⟨hin.executed, hin.begun⟩, hin.decoded, (performing_run h).performed, ?_,
    fun cmd => hin.whereabouts, ?_⟩
  · cases hcaller : w.caller with
    | none => rw [(hin.running hrun).idle hcaller, Option.toList_none, List.append_nil]
    | some cmd => exact hin.caller cmd hcaller
  · intro move w' cmd hstep hok
    cases hstep with
    | brokenPipe _ _ hover _ | endOfFile _ _ hover => exact Or.inr hover
    | returned hcaller hacks =>
        cases (show _ = cmd from hok)
        obtain ⟨-, hexecuted, -⟩ := hin.answered hcaller hacks
        have hsent := hin.caller _ hcaller
        refine Or.inl ⟨hexecuted, ?_, hsent.symm⟩
        rw [hsent, List.getLast?_concat]
    | _ => exact nomatch hok
  · intro cmd hcaller hready
    cases hacks : w.acks with
    | cons ack acks => exact ⟨.returned cmd, _, rfl, .returned hcaller hacks, rfl⟩
    | nil =>
        exact ⟨.endOfFile cmd, _, rfl,
          .endOfFile hcaller hacks (hready.resolve_left fun hne => hne hacks), rfl⟩

/-- One SIGTERM, from the write to the acknowledgement. -/
theorem one_command_at_a_time_sigterm :
    ∃ moves w, Run SessionStep (.start 6 7) moves w ∧ w.acknowledged = [.signal SIGTERM]
      ∧ w.calls = [.killpg SIGTERM] ∧ OneAtATime w := by
  have hrun : Run SessionStep (.start 6 7) _ _ :=
    .cons (.wrote rfl rfl (not_over (fun _ => Phase.noConfusion) Phase.noConfusion)
      (show Sendable (.signal SIGTERM) from ⟨by decide, by decide⟩) rfl) <|
    .cons (.polled rfl (show Session.Polls _ ⟨true, false, false⟩ from
      ⟨by decide, by decide, rfl, Or.inl rfl⟩)) <|
    .cons (.read rfl rfl rfl rfl) <|
    .cons (.called rfl (by decide +kernel)) <|
    .cons (.acked rfl rfl) <|
    .single (.returned rfl rfl)
  exact ⟨_, _, hrun, rfl, rfl, one_command_at_a_time hrun⟩

end BeamMonitorProtocol
