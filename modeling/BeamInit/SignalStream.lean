import BeamInit.Completion

/-! # Signal stream — no exit of a child goes unheard

    Signals of one kind coalesce: however many children exit before the task of
    `signal_stream::init` reads their SIGCHLD, it reads one.  The task puts what
    it reads on the event channel, and the handling of a SIGCHLD asks `waitpid`
    until no child that has exited is left.  So every exit is reaped, and all
    that the completion of a stop needs of the kernel is that a killed process
    dies. -/

namespace BeamSignalStream

open BeamApi BeamOs BeamManager BeamService BeamMainLoop BeamConsistency BeamOperations
open BeamChannel BeamRefinement BeamForceKill BeamCompletion
open BeamLifecycle (sentEffects)
open Runs Fairness

/-! ## The kernel, the task and the loop -/

/-- A child that has exited and that `waitpid` has not returned. -/
abbrev Zombie := Pid × StdExitStatus

/-- What `waitpid` returns for a child. -/
def waited (reap : Reap) : Zombie := (reap.pid, reap.status)

/-- The signals of the signalfd. -/
def signals : List Int := [SIGCHLD, SIGTERM, SIGINT]

structure Signalled where
  sys : System
  zombies : List Zombie
  /-- The signals that are pending; each is pending once. -/
  pending : Int → Bool
  /-- What the task of `signal_stream::init` has read and not sent yet. -/
  unsent : Option Int

def Signalled.raise (s : Signalled) (signo : Int) : Signalled :=
  { s with pending := Function.update s.pending signo true }

/-- The beginning: the signals are blocked before the first child is spawned. -/
def Signalled.new (sys : System) : Signalled := ⟨sys, [], fun _ => false, none⟩

inductive StreamMove where
  | system (move : SysMove)
  /-- A child exits, also one that was orphaned. -/
  | exited (zombie : Zombie)
  /-- A signal comes from elsewhere, or from a child that stopped or went on. -/
  | raised (signo : Int)
  | read (signo : Int)
  | sent (signo : Int)
  /-- The `waitpid` loop, with the children that exit while it runs. -/
  | reaped (os : Os) (reply : Reply) (during : List Zombie)

/-- A step of the system that sends no signal and does not wait for children. -/
def aside : SysMove → Bool
  | .posted (.signal _) => false
  | .received _ (.posted (.signal signo)) _ => signo != SIGCHLD
  | _ => true

inductive StreamStep : Signalled → StreamMove → Signalled → Prop where
  | system {s : Signalled} {move : SysMove} {sys' : System} :
      SysStep s.sys move sys' → aside move = true →
      StreamStep s (.system move) { s with sys := sys' }
  | exited {s : Signalled} {zombie : Zombie} :
      (∀ other ∈ s.zombies, other.1 ≠ zombie.1) →
      StreamStep s (.exited zombie) ({ s with zombies := zombie :: s.zombies }.raise SIGCHLD)
  | raised {s : Signalled} {signo : Int} : signo ∈ signals →
      StreamStep s (.raised signo) (s.raise signo)
  | read {s : Signalled} {signo : Int} : s.unsent = none → s.pending signo = true →
      StreamStep s (.read signo)
        { s with pending := Function.update s.pending signo false, unsent := some signo }
  | sent {s : Signalled} {signo : Int} {sys' : System} : s.unsent = some signo →
      SysStep s.sys (.posted (.signal signo)) sys' →
      StreamStep s (.sent signo) { s with sys := sys', unsent := none }
  /-- `waitpid` returns `None` only when no exited child is left; a child that
      exits while the loop runs raises SIGCHLD once more. -/
  | reaped {s : Signalled} {os : Os} {reply : Reply} {during : List Zombie} {sys' : System} :
      SysStep s.sys (.received os (.posted (.signal SIGCHLD)) reply) sys' →
      (os.reaped.map waited).Perm (s.zombies ++ during) →
      StreamStep s (.reaped os reply during) { s with
        sys := sys'
        zombies := []
        pending := if during = [] then s.pending else Function.update s.pending SIGCHLD true }

/-! ## The system below -/

def systemMove : StreamMove → Option SysMove
  | .system move => some move
  | .exited _ | .raised _ | .read _ => none
  | .sent signo => some (.posted (.signal signo))
  | .reaped os reply _ => some (.received os (.posted (.signal SIGCHLD)) reply)

/-- A step of the stream is a step of the system below, or none. -/
theorem streamStep_system {s s' : Signalled} {move : StreamMove} (h : StreamStep s move s') :
    Moves SysStep s.sys (systemMove move) s'.sys := by
  cases h with
  | system hstep _ => exact hstep
  | exited _ | raised _ | read _ _ => exact rfl
  | sent _ hstep => exact hstep
  | reaped hstep _ => exact hstep

/-- The execution of the system in an execution with its signals. -/
def systemOf (e : Execution StreamStep) : Execution SysStep :=
  e.image Signalled.sys systemMove streamStep_system

/-! ## Exits are heard of -/

/-- A SIGCHLD is on its way to the loop. -/
def Underway (s : Signalled) : Prop :=
  s.pending SIGCHLD = true ∨ s.unsent = some SIGCHLD ∨ .posted (.signal SIGCHLD) ∈ s.sys.queue

/-- As long as a child has exited and was not reaped. -/
def Heard (s : Signalled) : Prop := s.zombies ≠ [] → Underway s

theorem raise_pending (s : Signalled) (signo : Int) : (s.raise signo).pending signo = true :=
  Function.update_self ..

/-- A pending signal stays pending when another one is raised. -/
theorem raise_keeps {s : Signalled} {signo signo' : Int} (h : s.pending signo = true) :
    (s.raise signo').pending signo = true := by
  by_cases hsig : signo = signo'
  · subst hsig
    exact raise_pending _ _
  · exact (Function.update_of_ne hsig _ _).trans h

/-- An aside step leaves a queued SIGCHLD where it is. -/
theorem aside_queue {sys sys' : System} {move : SysMove} (h : SysStep sys move sys')
    (haside : aside move = true) (hmem : .posted (.signal SIGCHLD) ∈ sys.queue) :
    .posted (.signal SIGCHLD) ∈ sys'.queue := by
  rcases queue_step h with ⟨new, hqueue, -⟩ | ⟨os, message, reply, rfl, hqueue⟩
  · rw [hqueue]
    exact List.mem_append_left _ hmem
  · rw [hqueue] at hmem
    rcases List.mem_cons.mp hmem with rfl | hmem
    · exact Bool.noConfusion haside
    · exact hmem

/-- **Every step** keeps word of the children that have exited. -/
theorem heard_step {s s' : Signalled} {move : StreamMove} (h : Heard s)
    (hstep : StreamStep s move s') : Heard s' := by
  intro hzombies
  cases hstep with
  | system hsys haside =>
      rcases h hzombies with hpending | hunsent | hqueued
      · exact Or.inl hpending
      · exact Or.inr (Or.inl hunsent)
      · exact Or.inr (Or.inr (aside_queue hsys haside hqueued))
  | exited _ => exact Or.inl (raise_pending _ _)
  | raised _ =>
      rcases h hzombies with hpending | hrest
      · exact Or.inl (raise_keeps hpending)
      · exact Or.inr hrest
  | @read signo hnone hpending =>
      by_cases hsig : SIGCHLD = signo
      · subst hsig
        exact Or.inr (Or.inl rfl)
      · rcases h hzombies with hpending | hunsent | hqueued
        · exact Or.inl ((Function.update_of_ne hsig _ _).trans hpending)
        · exact nomatch hnone.symm.trans hunsent
        · exact Or.inr (Or.inr hqueued)
  | @sent signo _ hunsent hsys =>
      rcases h hzombies with hpending | hunsent' | hqueued
      · exact Or.inl hpending
      · cases hunsent.symm.trans hunsent'
        refine Or.inr (Or.inr ?_)
        cases hsys with
        | posted _ _ => exact List.mem_append_right _ List.mem_cons_self
      · refine Or.inr (Or.inr ?_)
        cases hsys with
        | posted _ _ => exact List.mem_append_left _ hqueued
  | reaped _ _ => exact absurd rfl hzombies

/-- The states from one on whose exits have all been reaped. -/
def StreamReachable (s : Signalled) : Prop :=
  ∃ sys moves, SysReachable sys ∧ Run StreamStep (.new sys) moves s

/-- A step from a reachable state leads to a reachable one. -/
theorem StreamReachable.snoc {s s' : Signalled} {move : StreamMove} (h : StreamReachable s)
    (hstep : StreamStep s move s') : StreamReachable s' := by
  obtain ⟨sys, moves, hsys, hrun⟩ := h
  exact ⟨sys, _, hsys, hrun.snoc hstep⟩

/-- **No exit goes unheard**, whatever coalesces. -/
theorem streamReachable_heard {s : Signalled} (h : StreamReachable s) : Heard s := by
  obtain ⟨sys, moves, -, hrun⟩ := h
  exact hrun.invariant heard_step fun hzombies => absurd rfl hzombies

/-! ## What the loop reaps -/

/-- A start only adds to the trace. -/
theorem startService_trace {os : StartOutcome} {m m' : Machine} {credentials : Credentials}
    {name : String} {reason : StartReason} {result : Except ServiceError Unit}
    (h : startService os m credentials name reason = .ok (result, m')) : m.trace <+: m'.trace := by
  rw [startService] at h
  by_cases hshut : m.mgr.shutdown = true
  · rw [if_pos hshut] at h
    cases h
    exact List.prefix_rfl
  · rw [if_neg hshut] at h
    cases hget : m.get? name with
    | none =>
        rw [hget] at h
        cases h
        exact List.prefix_rfl
    | some s =>
        rw [hget] at h
        dsimp only at h
        cases hcred : s.checkCredentials credentials with
        | error e =>
            rw [hcred] at h
            cases h
            exact List.prefix_rfl
        | ok _ =>
            rw [hcred] at h
            obtain ⟨⟨_, _, _⟩, -, h⟩ := bind_eq_ok.mp h
            cases h
            exact List.prefix_append _ _

/-- The loop first counts the child as reaped, whatever that leads to. -/
theorem reapChild_trace {m m' : Machine} {reap : Reap} (h : reapChild reap m = .ok m') :
    (m.trace ++ [.reaped reap.pid reap.status]) <+: m'.trace := by
  rw [reapChild] at h
  dsimp only at h
  generalize hm₁ : m.emit [.reaped reap.pid reap.status] = m₁ at h
  have htrace : m₁.trace = m.trace ++ [.reaped reap.pid reap.status] := hm₁ ▸ rfl
  rw [← htrace]
  cases hfind : m₁.mgr.services.toList.find?
      (fun entry => isMain entry.2.state.status reap.pid) with
  | none =>
      rw [hfind] at h
      cases h
      exact List.prefix_rfl
  | some entry =>
      obtain ⟨name, s⟩ := entry
      rw [hfind] at h
      dsimp only at h
      cases hst : s.state.status with
      | running process pty | frozen process pty =>
          rw [hst] at h
          obtain ⟨s', -, h⟩ := bind_eq_ok.mp h
          cases h
          exact List.prefix_append _ _
      | stopping process afterStop pendingKill =>
          rw [hst] at h
          cases afterStop with
          | stop =>
              obtain ⟨s', -, h⟩ := bind_eq_ok.mp h
              cases h
              exact List.prefix_append _ _
          | prune =>
              dsimp only at h
              cases hget : m₁.get? name with
              | none =>
                  rw [hget] at h
                  cases h
              | some _ =>
                  rw [hget] at h
                  cases h
                  exact List.prefix_append _ _
          | restart reason =>
              obtain ⟨⟨result, m₂⟩, hstart, h⟩ := bind_eq_ok.mp h
              cases h
              exact (List.prefix_append _ _).trans (startService_trace hstart)
      | stopped | exited _ | error _ | dummy =>
          rw [hst] at h
          cases h
          exact List.prefix_rfl

/-- The loop adds the reaping of each child that is there. -/
theorem reapAll_trace (reaps : List Reap) {m m' : Machine}
    (h : reaps.foldlM (fun m reap => reapChild reap m) m = .ok m') :
    m.trace <+: m'.trace
      ∧ ∀ reap ∈ reaps, .reaped reap.pid reap.status ∈ newEffects m m' := by
  induction reaps generalizing m with
  | nil =>
      cases h
      exact ⟨List.prefix_rfl, fun _ hmem => absurd hmem List.not_mem_nil⟩
  | cons reap reaps ih =>
      rw [List.foldlM_cons] at h
      obtain ⟨m₁, hfirst, hrest⟩ := bind_eq_ok.mp h
      obtain ⟨hpre, hall⟩ := ih hrest
      obtain ⟨out, hout⟩ := reapChild_trace hfirst
      rw [List.append_assoc] at hout
      have hm₁ : m.trace <+: m₁.trace := ⟨_, hout⟩
      refine ⟨hm₁.trans hpre, fun r hmem => ?_⟩
      rw [newEffects_trans hm₁ hpre]
      rcases List.mem_cons.mp hmem with rfl | hmem
      · rw [newEffects_of_append hout.symm]
        exact List.mem_append_left _ List.mem_cons_self
      · exact List.mem_append_right _ (hall r hmem)

/-- **One SIGCHLD is enough**: its handling reaps every child that has exited. -/
theorem reaped_all {s s' : Signalled} {os : Os} {reply : Reply} {during : List Zombie}
    (h : StreamStep s (.reaped os reply during) s') {zombie : Zombie} (hmem : zombie ∈ s.zombies) :
    .reaped zombie.1 zombie.2 ∈ newEffects s.sys.machine s'.sys.machine := by
  cases h with
  | reaped hsys hperm =>
      have hreap : zombie ∈ os.reaped.map waited :=
        hperm.mem_iff.mpr (List.mem_append_left _ hmem)
      obtain ⟨reap, hin, rfl⟩ := List.mem_map.mp hreap
      cases hsys with
      | received _ _ hevent _ _ =>
          obtain ⟨m₁, hsignal, h⟩ := bind_eq_ok.mp hevent
          cases h
          rcases handleSignal_ok hsignal with ⟨-, hall⟩ | ⟨hterm, -⟩ | ⟨hnot, -, -⟩
          · exact (reapAll_trace _ hall).2 reap hin
          · exact absurd hterm (by decide)
          · exact absurd rfl hnot

/-! ## Every exit is reaped -/

/-- What is assumed of the kernel, the task and the loop, until beam-init ends. -/
structure StreamFair (e : Execution StreamStep) : Prop where
  /-- The loop comes back to take an event off the channel. -/
  receives : ∀ i, (e.state i).sys.queue ≠ [] → Eventually (fun j => Ended (e.state j).sys
    ∨ ∃ os message reply, (systemOf e).label j = some (.received os message reply)) i
  /-- A grace timer is aborted, or it expires and finds room on the channel. -/
  expires : ∀ i, ∀ timer ∈ (e.state i).sys.tasks.timers, Eventually (fun j =>
    Ended (e.state j).sys ∨ timer ∉ (e.state j).sys.tasks.timers) i
  /-- A pending signal is read. -/
  reads : ∀ i signo, (e.state i).pending signo = true → Eventually (fun j =>
    Ended (e.state j).sys ∨ (e.state j).pending signo = false) i
  /-- The task finds room on the channel. -/
  sends : ∀ i signo, (e.state i).unsent = some signo → Eventually (fun j =>
    Ended (e.state j).sys ∨ (e.state j).unsent = none) i
  /-- A child that was sent SIGKILL exits. -/
  dies : ∀ i process, process ∈ unreaped (e.state i).sys.machine.trace →
    WasKilled process (e.state i).sys.machine → Eventually (fun j => Ended (e.state j).sys
      ∨ ReapedSince process (e.state i).sys.machine (e.state j).sys.machine
      ∨ ∃ status, (process.mainPid, status) ∈ (e.state j).zombies) i

section Progress

variable {e : Execution StreamStep} {i j : Nat} {zombie : Zombie}

/-- The goal for a child that had exited at the instant `i`. -/
def Waited (e : Execution StreamStep) (zombie : Zombie) (i j : Nat) : Prop :=
  Ended (e.state j).sys
    ∨ .reaped zombie.1 zombie.2 ∈ newEffects (e.state i).sys.machine (e.state j).sys.machine

/-- The trace only grows along an execution. -/
theorem stream_trace (hij : i ≤ j) :
    (e.state i).sys.machine.trace <+: (e.state j).sys.machine.trace :=
  state_trace (e := systemOf e) hij

/-- What is reached from a later instant is reached from an earlier one. -/
theorem Waited.since (hij : i ≤ j) (h : Eventually (Waited e zombie j) j) :
    Eventually (Waited e zombie i) j := by
  refine h.mono fun k hjk hwaited => hwaited.imp_right fun hreaped => ?_
  rw [newEffects_trans (stream_trace hij) (stream_trace hjk)]
  exact List.mem_append_right _ hreaped

/-- An exited child stays one until the loop waits. -/
theorem zombie_step {s s' : Signalled} {move : StreamMove} (h : StreamStep s move s')
    (hmem : zombie ∈ s.zombies) :
    zombie ∈ s'.zombies ∨ ∃ os reply during, move = .reaped os reply during := by
  cases h with
  | system _ _ | raised _ | read _ _ | sent _ _ => exact Or.inl hmem
  | exited _ => exact Or.inl (List.mem_cons_of_mem _ hmem)
  | reaped _ _ => exact Or.inr ⟨_, _, _, rfl⟩

/-- A child that has exited is still to be reaped, or was reaped. -/
theorem zombie_until (hij : i ≤ j) (hmem : zombie ∈ (e.state i).zombies) :
    zombie ∈ (e.state j).zombies
      ∨ .reaped zombie.1 zombie.2 ∈ newEffects (e.state i).sys.machine (e.state j).sys.machine := by
  refine e.holds_until (P := fun s => zombie ∈ s.zombies
    ∨ .reaped zombie.1 zombie.2 ∈ newEffects (e.state i).sys.machine s.sys.machine)
    hij (Or.inl hmem) fun k hik _ move hlabel hstep h => ?_
  rw [newEffects_trans (stream_trace hik) (stream_trace (Nat.le_succ k))]
  rcases h with hmem | hreaped
  · rcases zombie_step hstep hmem with hmem' | ⟨os, reply, during, rfl⟩
    · exact Or.inl hmem'
    · exact Or.inr (List.mem_append_right _ (reaped_all hstep hmem))
  · exact Or.inr (List.mem_append_left _ hreaped)

/-- A read signal stays with the task until it is on the channel. -/
theorem unsent_step {s s' : Signalled} {move : StreamMove} (h : StreamStep s move s')
    (hunsent : s.unsent = some SIGCHLD) :
    s'.unsent = some SIGCHLD ∨ .posted (.signal SIGCHLD) ∈ s'.sys.queue := by
  cases h with
  | system _ _ | exited _ | raised _ | reaped _ _ => exact Or.inl hunsent
  | read hnone _ => cases hnone.symm.trans hunsent
  | sent hsome hsys =>
      cases hsome.symm.trans hunsent
      cases hsys with
      | posted _ _ => exact Or.inr (List.mem_append_right _ List.mem_cons_self)

/-- A pending signal stays so until the task has it. -/
theorem pending_step {s s' : Signalled} {move : StreamMove} (h : StreamStep s move s')
    (hpending : s.pending SIGCHLD = true) :
    s'.pending SIGCHLD = true ∨ s'.unsent = some SIGCHLD := by
  cases h with
  | system _ _ | sent _ _ => exact Or.inl hpending
  | exited _ => exact Or.inl (raise_pending _ _)
  | raised _ => exact Or.inl (raise_keeps hpending)
  | @read signo _ _ =>
      by_cases hsig : SIGCHLD = signo
      · subst hsig
        exact Or.inr rfl
      · exact Or.inl ((Function.update_of_ne hsig _ _).trans hpending)
  | @reaped os reply during sys' _ _ =>
      refine Or.inl ?_
      by_cases hduring : during = []
      · exact (congrFun (if_pos hduring) SIGCHLD).trans hpending
      · exact (congrFun (if_neg hduring) SIGCHLD).trans (Function.update_self ..)

theorem aside_of_step {s s' : Signalled} {move : SysMove} (h : StreamStep s (.system move) s') :
    aside move = true := by
  cases h with
  | system _ haside => exact haside

/-- A SIGCHLD on the channel reaps. -/
theorem queued_waited (hfair : StreamFair e) (hmem : zombie ∈ (e.state i).zombies)
    (hqueued : .posted (.signal SIGCHLD) ∈ (e.state i).sys.queue) :
    Eventually (Waited e zombie i) i := by
  obtain ⟨k, hk⟩ := List.getElem?_of_mem hqueued
  refine (message_received (e := systemOf e) hfair.receives hk).trans fun j hij hj => ?_
  rcases hj with hended | ⟨os, reply, hlabel⟩
  · exact .now (Or.inl hended)
  · refine ⟨j + 1, Nat.le_succ j, Or.inr ?_⟩
    rw [newEffects_trans (stream_trace hij) (stream_trace (Nat.le_succ j))]
    rcases zombie_until hij hmem with hmem' | hreaped
    · -- the step that receives the event is the loop itself
      refine List.mem_append_right _ ?_
      have hmove := e.moves j
      cases hstream : e.label j with
      | none =>
          rw [show (systemOf e).label j = (e.label j).bind systemMove from rfl, hstream] at hlabel
          cases hlabel
      | some move =>
          rw [show (systemOf e).label j = (e.label j).bind systemMove from rfl, hstream] at hlabel
          rw [hstream] at hmove
          cases move with
          | system sysMove =>
              cases hlabel
              exact Bool.noConfusion (aside_of_step hmove)
          | exited _ | raised _ | read _ | sent _ => cases hlabel
          | reaped os reply during => exact reaped_all hmove hmem'
    · exact List.mem_append_left _ hreaped

/-- What the task has read comes to the channel. -/
theorem unsent_waited (hfair : StreamFair e) (hmem : zombie ∈ (e.state i).zombies)
    (hunsent : (e.state i).unsent = some SIGCHLD) : Eventually (Waited e zombie i) i := by
  by_cases hend : Eventually (fun j => Ended (e.state j).sys) i
  · exact hend.mono fun j _ => Or.inl
  · have hleave : ∃ j, i ≤ j ∧ ¬ (e.state j).unsent = some SIGCHLD := by
      obtain ⟨j, hij, hj⟩ := hfair.sends i SIGCHLD hunsent
      refine ⟨j, hij, fun hstill => hj.elim (fun hended => hend ⟨j, hij, hended⟩) fun hnone => ?_⟩
      cases hnone.symm.trans hstill
    have hgoal : Eventually (fun j => .posted (.signal SIGCHLD) ∈ (e.state j).sys.queue) i :=
      e.leaves (P := fun s => s.unsent = some SIGCHLD)
        (Q := fun s => .posted (.signal SIGCHLD) ∈ s.sys.queue)
        (fun hunsent hstep => unsent_step hstep hunsent) hleave hunsent
    refine hgoal.trans fun j hij hqueued => ?_
    rcases zombie_until hij hmem with hmem' | hreaped
    · exact Waited.since hij (queued_waited hfair hmem' hqueued)
    · exact .now (Or.inr hreaped)

/-- What is pending comes to the task. -/
theorem pending_waited (hfair : StreamFair e) (hmem : zombie ∈ (e.state i).zombies)
    (hpending : (e.state i).pending SIGCHLD = true) : Eventually (Waited e zombie i) i := by
  by_cases hend : Eventually (fun j => Ended (e.state j).sys) i
  · exact hend.mono fun j _ => Or.inl
  · have hleave : ∃ j, i ≤ j ∧ ¬ (e.state j).pending SIGCHLD = true := by
      obtain ⟨j, hij, hj⟩ := hfair.reads i SIGCHLD hpending
      refine ⟨j, hij, fun hstill => hj.elim (fun hended => hend ⟨j, hij, hended⟩) fun hnone => ?_⟩
      cases hnone.symm.trans hstill
    have hgoal : Eventually (fun j => (e.state j).unsent = some SIGCHLD) i :=
      e.leaves (P := fun s => s.pending SIGCHLD = true) (Q := fun s => s.unsent = some SIGCHLD)
        (fun hpending hstep => pending_step hstep hpending) hleave hpending
    refine hgoal.trans fun j hij hunsent => ?_
    rcases zombie_until hij hmem with hmem' | hreaped
    · exact Waited.since hij (unsent_waited hfair hmem' hunsent)
    · exact .now (Or.inr hreaped)

/-- An exited child is reaped, wherever its SIGCHLD is. -/
theorem zombie_waited (h0 : StreamReachable (e.state 0)) (hfair : StreamFair e)
    (hmem : zombie ∈ (e.state i).zombies) : Eventually (Waited e zombie i) i := by
  have hheard : Heard (e.state i) :=
    streamReachable_heard (e.keeps StreamReachable.snoc (Nat.zero_le i) h0)
  rcases hheard (List.ne_nil_of_mem hmem) with hpending | hunsent | hqueued
  · exact pending_waited hfair hmem hpending
  · exact unsent_waited hfair hmem hunsent
  · exact queued_waited hfair hmem hqueued

end Progress

/-! ## An example -/

/-- Once beam-init has ended nothing more is asked of the kernel or the task. -/
theorem streamFair_of_ended {e : Execution StreamStep} {n : Nat}
    (h : ∀ j, n ≤ j → Ended (e.state j).sys) : StreamFair e := by
  have hlate : ∀ i, ∃ j, i ≤ j ∧ Ended (e.state j).sys :=
    fun i => ⟨max i n, Nat.le_max_left i n, h _ (Nat.le_max_right i n)⟩
  constructor
  · intro i _
    exact (hlate i).imp fun j hj => ⟨hj.1, Or.inl hj.2⟩
  · intro i timer _
    exact (hlate i).imp fun j hj => ⟨hj.1, Or.inl hj.2⟩
  · intro i signo _
    exact (hlate i).imp fun j hj => ⟨hj.1, Or.inl hj.2⟩
  · intro i signo _
    exact (hlate i).imp fun j hj => ⟨hj.1, Or.inl hj.2⟩
  · intro i process _ _
    exact (hlate i).imp fun j hj => ⟨hj.1, Or.inl hj.2⟩

/-- Bootstrap and `web` run. -/
def bothRun : List Choice :=
  [.receive (steadyOs 50 9 []), .post createWeb.2, .receive createWeb.1]

/-- Both have exited, and one SIGCHLD is pending. -/
def bothExited : Signalled where
  sys := systemAfter bothRun
  zombies := [(50, ⟨0⟩), (100, ⟨9⟩)]
  pending := Function.update (Function.update (fun _ => false) SIGCHLD true) SIGCHLD true
  unsent := none

/-- Both processes have exited, in a reachable state. -/
theorem bothExited_reachable : StreamReachable bothExited := by
  refine ⟨systemAfter bothRun, [.exited (100, ⟨9⟩), .exited (50, ⟨0⟩)],
    systemAfter_reachable (by decide +kernel), ?_⟩
  refine .cons (.exited fun _ hmem => absurd hmem List.not_mem_nil) (.single (.exited ?_))
  decide

/-- The loop reaps both. -/
def reapsBoth : Os :=
  steadyOs 0 0 [⟨50, ⟨0⟩, (steadyOs 0 0 []).start⟩, ⟨100, ⟨9⟩, (steadyOs 0 0 []).start⟩]

/-- The one SIGCHLD is read, sent and handled; then beam-init exits with bootstrap. -/
theorem exists_streamFair :
    ∃ e : Execution StreamStep, e.state 0 = bothExited ∧ StreamFair e := by
  have hposted : SysStep (systemAfter bothRun) (.posted (.signal SIGCHLD))
      (systemAfter (bothRun ++ [.post (.signal SIGCHLD)])) := systemAfter_post (by decide +kernel)
  have hstep : SysStep (systemAfter (bothRun ++ [.post (.signal SIGCHLD)]))
      (.received reapsBoth (.posted (.signal SIGCHLD)) .silent)
      (systemAfter (bothRun ++ [.post (.signal SIGCHLD)] ++ [.receive reapsBoth])) :=
    systemAfter_receive (by decide +kernel) (by decide +kernel) (by decide +kernel)
  have hend : Ended (systemAfter (bothRun ++ [.post (.signal SIGCHLD)] ++ [.receive reapsBoth])) := by
    decide +kernel
  have hwait : (reapsBoth.reaped.map waited).Perm (bothExited.zombies ++ []) := List.Perm.refl _
  have hread : bothExited.pending SIGCHLD = true := by
    simp [bothExited]
  obtain ⟨e, hstart, hrest⟩ := exists_execution (.cons (StreamStep.read (s := bothExited) rfl hread)
    (.cons (StreamStep.sent rfl hposted) (.single (StreamStep.reaped hstep hwait))))
  refine ⟨e, hstart, streamFair_of_ended (n := 3) fun j hj => ?_⟩
  rw [hrest j hj]
  exact hend

/-- Only `web` exits: its SIGCHLD is pending, read, and on the channel. -/
def webExited : Signalled := { Signalled.new (systemAfter bothRun) with zombies := [(100, ⟨9⟩)] }.raise SIGCHLD

/-- The loop reaps it, and goes on with bootstrap. -/
def reapsWeb : Os := steadyOs 0 0 [⟨100, ⟨9⟩, (steadyOs 0 0 []).start⟩]

def webStates : Nat → Signalled
  | 0 => webExited
  | 1 => { webExited with
      pending := Function.update webExited.pending SIGCHLD false, unsent := some SIGCHLD }
  | 2 => { webExited with
      sys := systemAfter (bothRun ++ [.post (.signal SIGCHLD)])
      pending := Function.update webExited.pending SIGCHLD false }
  | _ + 3 => { webExited with
      sys := systemAfter (bothRun ++ [.post (.signal SIGCHLD)] ++ [.receive reapsWeb])
      zombies := []
      pending := Function.update webExited.pending SIGCHLD false }

def webLabels : Nat → Option StreamMove
  | 0 => some (.read SIGCHLD)
  | 1 => some (.sent SIGCHLD)
  | 2 => some (.reaped reapsWeb .silent [])
  | _ + 3 => none

/-- The states of the execution follow its moves. -/
theorem webStates_moves (i : Nat) : Moves StreamStep (webStates i) (webLabels i) (webStates (i + 1)) := by
  rcases i with _ | _ | _ | i
  · exact .read rfl (raise_pending _ _)
  · exact .sent rfl (systemAfter_post (by decide +kernel))
  · have hstep : SysStep (systemAfter (bothRun ++ [.post (.signal SIGCHLD)]))
        (.received reapsWeb (.posted (.signal SIGCHLD)) .silent)
        (systemAfter (bothRun ++ [.post (.signal SIGCHLD)] ++ [.receive reapsWeb])) :=
      systemAfter_receive (by decide +kernel) (by decide +kernel) (by decide +kernel)
    have hwait : (reapsWeb.reaped.map waited).Perm ((webStates 2).zombies ++ []) := List.Perm.refl _
    exact .reaped hstep hwait
  · rfl

/-- An execution in which the loop goes on for ever. -/
def webExecution : Execution StreamStep := ⟨webStates, webLabels, webStates_moves⟩

/-- What holds of the three systems that it passes through. -/
theorem webStates_sys {P : System → Prop} (hrun : P (systemAfter bothRun))
    (hposted : P (systemAfter (bothRun ++ [.post (.signal SIGCHLD)])))
    (hreaped : P (systemAfter (bothRun ++ [.post (.signal SIGCHLD)] ++ [.receive reapsWeb])))
    (i : Nat) : P (webStates i).sys := by
  rcases i with _ | _ | _ | i
  · exact hrun
  · exact hrun
  · exact hposted
  · exact hreaped

/-- A signal to a process, sent by the loop. -/
def isSent : Effect → Bool
  | .kill .. | .monitor .. => true
  | _ => false

/-- Without a signal nobody was killed. -/
theorem not_wasKilled {process : ServiceProcess} {m : Machine}
    (h : ∀ e ∈ m.trace, isSent e = false) : ¬ WasKilled process m := by
  rintro ⟨e, hmem, hsent⟩
  have hquiet := h e hmem
  rw [sentEffects] at hsent
  cases htx : process.monitorTx with
  | some _ =>
      rw [htx] at hsent
      cases List.mem_singleton.mp hsent
      cases hquiet
  | none =>
      rw [htx] at hsent
      cases List.mem_singleton.mp hsent
      cases hquiet

/-- The execution that goes on is a fair one. -/
theorem webExecution_fair : StreamFair webExecution := by
  have hpending : ∀ i signo, (webStates (i + 1)).pending signo = false := by
    intro i signo
    have hcleared : Function.update webExited.pending SIGCHLD false signo = false := by
      by_cases hsig : signo = SIGCHLD
      · rw [hsig, Function.update_self]
      · rw [Function.update_of_ne hsig]
        exact Function.update_of_ne hsig _ _
    rcases i with _ | _ | i <;> exact hcleared
  have hunsent : ∀ i, (webStates (i + 2)).unsent = none := by
    intro i
    rcases i with _ | i <;> rfl
  refine ⟨fun i hqueue => ?_, fun i timer htimer => ?_, fun i signo _ => ?_, fun i signo _ => ?_,
    fun i process _ hkilled => ?_⟩
  · -- the channel holds something at one instant only
    have hempty : (systemAfter bothRun).queue = []
        ∧ (systemAfter (bothRun ++ [.post (.signal SIGCHLD)] ++ [.receive reapsWeb])).queue = [] := by
      decide +kernel
    rcases i with _ | _ | _ | i
    · exact absurd hempty.1 hqueue
    · exact absurd hempty.1 hqueue
    · exact .now (Or.inr ⟨_, _, _, rfl⟩)
    · exact absurd hempty.2 hqueue
  · have hnone : ∀ i, (webStates i).sys.tasks.timers = [] :=
      webStates_sys (P := fun sys => sys.tasks.timers = []) (by decide +kernel) (by decide +kernel)
        (by decide +kernel)
    rw [show (webExecution.state i).sys.tasks.timers = [] from hnone i] at htimer
    exact absurd htimer List.not_mem_nil
  · exact ⟨i + 1, Nat.le_succ i, Or.inr (hpending i signo)⟩
  · exact ⟨i + 2, Nat.le_add_right i 2, Or.inr (hunsent i)⟩
  · refine absurd hkilled (not_wasKilled ?_)
    exact webStates_sys (P := fun sys => ∀ e ∈ sys.machine.trace, isSent e = false)
      (by decide +kernel) (by decide +kernel) (by decide +kernel) i

theorem webExecution_goes_on (i : Nat) : ¬ Ended (webExecution.state i).sys :=
  webStates_sys (P := fun sys => ¬ Ended sys) (by decide +kernel) (by decide +kernel)
    (by decide +kernel) i

/-- The web service has exited, in a reachable state. -/
theorem webExited_reachable : StreamReachable webExited :=
  ⟨systemAfter bothRun, [.exited (100, ⟨9⟩)], systemAfter_reachable (by decide +kernel),
    .single (.exited fun _ hmem => absurd hmem List.not_mem_nil)⟩

/-! ## The results -/

/-- **HEADLINE.** In every fair execution each child that has exited is reaped, with
    its own status, however many exits one SIGCHLD stands for, unless beam-init
    ends before. -/
theorem exits_reaped {e : Execution StreamStep} (h0 : StreamReachable (e.state 0))
    (hfair : StreamFair e) {i : Nat} {zombie : Zombie} (hmem : zombie ∈ (e.state i).zombies) :
    Eventually (fun j => Ended (e.state j).sys
      ∨ .reaped zombie.1 zombie.2
        ∈ newEffects (e.state i).sys.machine (e.state j).sys.machine) i :=
  zombie_waited h0 hfair hmem

/-- One SIGCHLD stands for the exits of `web` and of bootstrap; and when `web` exits
    alone, it is reaped and the loop goes on. -/
theorem exits_reaped_both :
    (∃ e : Execution StreamStep, e.state 0 = bothExited
        ∧ Eventually (fun j => Ended (e.state j).sys
          ∨ .reaped 100 ⟨9⟩ ∈ newEffects (e.state 0).sys.machine (e.state j).sys.machine) 0)
      ∧ Eventually (fun j => .reaped 100 ⟨9⟩
          ∈ newEffects webExited.sys.machine (webExecution.state j).sys.machine) 0 := by
  obtain ⟨e, hstart, hfair⟩ := exists_streamFair
  have hmem : ((100, ⟨9⟩) : Zombie) ∈ (e.state 0).zombies := by
    rw [hstart]
    decide
  refine ⟨⟨e, hstart, exits_reaped (hstart ▸ bothExited_reachable) hfair hmem⟩, ?_⟩
  have hweb : ((100, ⟨9⟩) : Zombie) ∈ (webExecution.state 0).zombies := List.mem_singleton.mpr rfl
  exact (exits_reaped webExited_reachable webExecution_fair hweb).mono fun j _ hj =>
    hj.resolve_left (webExecution_goes_on j)

/-- **HEADLINE.** So a kernel in which a killed process dies is enough: the execution
    of the system below is fair, and stops and a shutdown come to their end there. -/
theorem system_fair {e : Execution StreamStep} (h0 : StreamReachable (e.state 0))
    (hfair : StreamFair e) : Fair (systemOf e) := by
  refine ⟨hfair.receives, hfair.expires, fun i process hchild hkilled => ?_⟩
  refine (hfair.dies i process hchild hkilled).trans fun j hij hj => ?_
  rcases hj with hended | hreaped | ⟨status, hmem⟩
  · exact .now (Or.inl hended)
  · exact .now (Or.inr hreaped)
  · refine (Waited.since hij (zombie_waited h0 hfair hmem)).mono fun k _ hk => ?_
    exact hk.imp_right fun hreaped => ⟨status, hreaped⟩

theorem system_fair_both :
    (∃ e : Execution StreamStep, e.state 0 = bothExited ∧ Fair (systemOf e))
      ∧ Fair (systemOf webExecution) := by
  obtain ⟨e, hstart, hfair⟩ := exists_streamFair
  exact ⟨⟨e, hstart, system_fair (hstart ▸ bothExited_reachable) hfair⟩,
    system_fair webExited_reachable webExecution_fair⟩

end BeamSignalStream
