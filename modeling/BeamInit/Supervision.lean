import BeamInit.MonitorProtocol
import BeamInit.Network

/-! # beam-init and one monitor — the two models side by side

    The manager records the commands it sends as effects; the session of a monitor
    has the bytes and the system calls.  Beside each other, an event of the main
    loop and the session agree on the commands sent, and the manager reaps a
    monitor that has exited only. -/

namespace BeamSupervision

open BeamApi BeamOs BeamService BeamManager BeamMainLoop BeamLifecycle BeamOperations
open BeamRefinement BeamConsistency BeamChannel BeamNetwork BeamMonitorLoop BeamMonitorProtocol Runs

/-! ## The commands on both sides -/

/-- The command that an effect sends to the monitor of `process`. -/
def commandTo (process : ServiceProcess) : Effect → Option MonitorCommand
  | .monitor p cmd => if p = process then some cmd else none
  | _ => none

/-- The command of a `send` that has returned `Ok`. -/
def sendReturned : SessionMove → Option MonitorCommand
  | .brokenPipe cmd | .returned cmd | .endOfFile cmd => some cmd
  | _ => none

/-- The steps of beam-init's own side. -/
def isCaller : SessionMove → Bool
  | .wrote _ | .brokenPipe _ | .failed _ | .returned _ | .endOfFile _ | .dropped => true
  | _ => false

/-! ## Joint steps -/

/-- The main loop, with the session of the monitor of one process. -/
structure Pair where
  machine : Machine
  session : Session

/-- The event handled, if any, and the steps of the session meanwhile. -/
abbrev PairLabel := Option Move × List SessionMove

/-- A step of the session by itself, or a step of the main loop, during which the
    session takes the steps of the commands sent.  The steps of the session are
    those of `S`. -/
inductive PairStep (S : Session → SessionMove → Session → Prop) (process : ServiceProcess) :
    Pair → PairLabel → Pair → Prop where
  | session {m : Machine} {w w' : Session} {move : SessionMove} :
      S w move w' → isCaller move = false → PairStep S process ⟨m, w⟩ (none, [move]) ⟨m, w'⟩
  | main {m m' : Machine} {w w' : Session} {move : Move} {moves : List SessionMove} :
      Step m move m' → w.caller = none → Run S w moves w' →
      moves.filterMap sendReturned = (newEffects m m').filterMap (commandTo process) →
      w'.caller = none →
      -- `waitpid` returns a monitor that has exited
      ((∃ status, .reaped process.mainPid status ∈ newEffects m m') → w'.Over) →
      PairStep S process ⟨m, w⟩ (some move, moves) ⟨m', w'⟩

section Pairs

variable {S : Session → SessionMove → Session → Prop} {process : ServiceProcess}
variable {pair pair' : Pair} {labels : List PairLabel}

/-- The session of a joint run is a run. -/
theorem session_run (h : Run (PairStep S process) pair labels pair') :
    Run S pair.session (labels.flatMap Prod.snd) pair'.session := by
  induction h with
  | nil pair => exact .nil _
  | cons hstep _ ih =>
      rw [List.flatMap_cons]
      cases hstep with
      | session hmove _ => exact Run.append (.single hmove) ih
      | main _ _ hrun _ _ _ => exact hrun.append ih

theorem machine_run (h : Run (PairStep S process) pair labels pair') :
    ∃ moves, Run Step pair.machine moves pair'.machine := by
  induction h with
  | nil pair => exact ⟨[], .nil _⟩
  | cons hstep _ ih =>
      obtain ⟨moves, hrun⟩ := ih
      cases hstep with
      | session _ _ => exact ⟨moves, hrun⟩
      | main hmove _ _ _ _ _ => exact ⟨_, .cons hmove hrun⟩

/-- Between two joint steps beam-init waits for no acknowledgement. -/
theorem caller_step {label : PairLabel} (h : PairStep SessionStep process pair label pair')
    (hcaller : pair.session.caller = none) : pair'.session.caller = none := by
  cases h with
  | main _ _ _ _ hcaller' _ => exact hcaller'
  | session hmove hside =>
      cases hmove with
      | wrote _ _ _ _ _ | brokenPipe _ _ _ _ | failed _ _ _ | returned _ _ | endOfFile _ _ _
      | dropped _ => exact nomatch hside
      | _ => exact hcaller

end Pairs

theorem step_trace {m m' : Machine} {move : Move} (h : Step m move m') : m.trace <+: m'.trace := by
  obtain ⟨labels, hrun⟩ := step_ok h
  exact run_trace hrun

theorem steps_trace {m m' : Machine} {moves : List Move} (h : Run Step m moves m') :
    m.trace <+: m'.trace :=
  h.relates (R := fun m m' => m.trace <+: m'.trace) (fun _ => List.prefix_refl _)
    List.IsPrefix.trans step_trace

/-! ## Reaping -/

/-- A child leaves the list of the unreaped by being reaped. -/
theorem reaped_of_foldl {process : ServiceProcess} {out : List Effect}
    {children : List ServiceProcess} (hmem : process ∈ children)
    (hgone : process ∉ out.foldl trackChild children) :
    ∃ status, .reaped process.mainPid status ∈ out := by
  induction out generalizing children with
  | nil => exact absurd hmem hgone
  | cons e out ih =>
      have hlater : process ∈ trackChild children e →
          ∃ status, .reaped process.mainPid status ∈ e :: out := by
        intro hkept
        obtain ⟨status, hstatus⟩ := ih hkept hgone
        exact ⟨status, List.mem_cons_of_mem _ hstatus⟩
      cases e with
      | spawned name child => exact hlater (List.mem_cons_of_mem _ hmem)
      | reaped pid status =>
          by_cases hpid : process.mainPid = pid
          · exact ⟨status, hpid ▸ List.mem_cons_self⟩
          · exact hlater (List.mem_filter.mpr ⟨hmem, decide_eq_true hpid⟩)
      | _ => exact hlater hmem

/-- A process that is no service's main process any more has been reaped. -/
theorem reaped_of_released {m₀ m : Machine} {name : String} {process : ServiceProcess}
    (hm₀ : Reachable m₀) (hm : Reachable m) (hpre : m₀.trace <+: m.trace)
    (hheld : holder m₀ name = some process) (hfree : ∀ other, holder m other ≠ some process) :
    ∃ status, .reaped process.mainPid status ∈ newEffects m₀ m := by
  have hbefore : process ∈ unreaped m₀.trace :=
    ((reachable_consistent hm₀).accounts.held process).mpr ⟨name, hheld⟩
  refine reaped_of_foldl hbefore fun hafter => ?_
  rw [← unreaped_append, ← newEffects_eq hpre] at hafter
  obtain ⟨other, hother⟩ := ((reachable_consistent hm).accounts.held process).mp hafter
  exact hfree other hother

/-! ## An exchange that goes well -/

/-- An arm whose calls succeed. -/
theorem calls_run {w : Session} {cmd : MonitorCommand} {calls : List Syscall} {revents : Revents}
    (hphase : w.phase = .executing cmd calls revents) (hsucceeds : ∀ call, w.succeeds call = true) :
    ∃ moves, Run SessionStep w moves { w with
        phase := .executing cmd [] revents, calls := w.calls ++ calls }
      ∧ moves.filterMap sendReturned = [] := by
  induction calls generalizing w with
  | nil =>
      refine ⟨[], ?_, rfl⟩
      rw [List.append_nil, ← hphase]
      exact .nil w
  | cons call calls ih =>
      have hfirst := SessionStep.called hphase (hsucceeds call)
      obtain ⟨moves, hrun, hnone⟩ := ih (show ({ w with
        phase := .executing cmd calls revents, calls := w.calls ++ [call] } : Session).phase = _
        from rfl) hsucceeds
      refine ⟨.called call :: moves, .cons hfirst ?_, hnone⟩
      have hcalls : w.calls ++ call :: calls = (w.calls ++ [call]) ++ calls :=
        (List.append_assoc _ [call] calls).symm
      rw [hcalls]
      exact hrun

/-- Between two commands, with every call going through. -/
structure Ready (w : Session) : Prop where
  caller : w.caller = none
  dropped : w.dropped = false
  commands : w.commands = []
  acks : w.acks = []
  phase : w.phase = .polling
  succeeds : ∀ call, w.succeeds call = true
  sigchld : w.sigchld = false

/-- The session after one more command. -/
def afterCommand (w : Session) (cmd : MonitorCommand) : Session := { w with
  sent := w.sent ++ [cmd]
  acknowledged := w.acknowledged ++ [cmd]
  begun := w.begun ++ [cmd]
  executed := w.executed ++ [cmd]
  calls := w.calls ++ handle cmd }

/-- At first the service leads its own group, in the monitor's session. -/
theorem start_succeeds {monitorPid servicePid : Pid} (hne : monitorPid ≠ servicePid)
    (hpos : 0 < servicePid) (call : Syscall) :
    (Session.start monitorPid servicePid).succeeds call = true := by
  have htable := start_table hne
  show (call.perform (Session.start monitorPid servicePid).processes monitorPid
    servicePid).toOption.isSome = true
  cases call with
  | killpg signal =>
      have hmember : servicePid
          ∈ ProcessTable.members (Session.start monitorPid servicePid).processes servicePid :=
        ProcessTable.mem_members.mpr ⟨_, htable.2, rfl⟩
      rw [Syscall.perform, ProcessTable.kill_group _ hpos, if_neg (List.ne_nil_of_mem hmember)]
      rfl
  | tcsetpgrp leader =>
      have hcoherent := start_coherent monitorPid servicePid
      cases leader with
      | service =>
          rw [Syscall.perform, ProcessTable.tcsetpgrp_eq_ok.mpr
            (ProcessTable.sessionOf_member hcoherent htable.2 rfl)]
          rfl
      | monitor =>
          rw [Syscall.perform, ProcessTable.tcsetpgrp_eq_ok.mpr
            (ProcessTable.sessionOf_member hcoherent htable.1 rfl)]
          rfl

theorem ready_start {monitorPid servicePid : Pid} (hne : monitorPid ≠ servicePid)
    (hpos : 0 < servicePid) : Ready (.start monitorPid servicePid) :=
  ⟨rfl, rfl, rfl, rfl, rfl, start_succeeds hne hpos, rfl⟩

theorem Ready.afterCommand {w : Session} (h : Ready w) (cmd : MonitorCommand) :
    Ready (afterCommand w cmd) :=
  ⟨h.caller, h.dropped, h.commands, h.acks, h.phase, h.succeeds, h.sigchld⟩

/-- **A command sent to a ready monitor** is executed and acknowledged. -/
theorem command_runs {w : Session} {cmd : MonitorCommand} (h : Ready w) (hsend : Sendable cmd) :
    ∃ moves, Run SessionStep w moves (afterCommand w cmd)
      ∧ moves.filterMap sendReturned = [cmd] := by
  obtain ⟨caller, dropped, commands, acks, phase, monitorPid, servicePid, processes, live, zombies,
    sigchld, sent, acknowledged, begun, executed, calls, waited⟩ := w
  obtain ⟨rfl, rfl, rfl, rfl, rfl, hsucceeds, rfl⟩ := h
  obtain ⟨byte, hbyte⟩ := ser_sendable hsend
  have hread : Run SessionStep ⟨none, false, [], [], .polling, monitorPid, servicePid, processes,
      live, zombies, false, sent, acknowledged, begun, executed, calls, waited⟩
      [.wrote cmd, .polled ⟨true, false, false⟩, .read cmd]
      ⟨some cmd, false, [], [], .executing cmd (handle cmd) ⟨true, false, false⟩, monitorPid,
        servicePid, processes, live, zombies, false, sent ++ [cmd], acknowledged, begun ++ [cmd],
        executed, calls, waited⟩ :=
    .cons (.wrote rfl rfl (not_over (fun _ => Phase.noConfusion) Phase.noConfusion) hsend hbyte) <|
    .cons (.polled rfl ⟨⟨fun _ => List.cons_ne_nil _ _, fun _ => rfl⟩, fun h => (nomatch h), rfl,
      Or.inl rfl⟩) <|
    .single (.read rfl rfl rfl (de_ser hsend hbyte))
  obtain ⟨moves, hcalls, hnone⟩ := @calls_run ⟨some cmd, false, [], [],
    .executing cmd (handle cmd) ⟨true, false, false⟩, monitorPid, servicePid, processes, live, zombies,
    false, sent ++ [cmd], acknowledged, begun ++ [cmd], executed, calls, waited⟩ cmd (handle cmd)
    ⟨true, false, false⟩ rfl hsucceeds
  have hback : Run SessionStep ⟨some cmd, false, [], [], .executing cmd [] ⟨true, false, false⟩,
      monitorPid, servicePid, processes, live, zombies, false, sent ++ [cmd], acknowledged,
      begun ++ [cmd], executed, calls ++ handle cmd, waited⟩ [.acked, .returned cmd, .hungUp, .noSignal]
      ⟨none, false, [], [], .polling, monitorPid, servicePid, processes, live, zombies, false,
        sent ++ [cmd], acknowledged ++ [cmd], begun ++ [cmd], executed ++ [cmd], calls ++ handle cmd,
        waited⟩ :=
    .cons (.acked rfl rfl) <| .cons (.returned rfl rfl) <| .cons (.hungUp rfl) <|
    .single (.noSignal rfl rfl)
  refine ⟨_, hread.append (hcalls.append hback), ?_⟩
  rw [List.filterMap_append, List.filterMap_append, hnone]
  rfl

end BeamSupervision
