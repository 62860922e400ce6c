import BeamInit.Escalation
import BeamInit.Shutdown
import BeamInit.Fairness

/-! # Completion — a termination and a shutdown come to an end

    Escalation says that a termination in progress has killed its process or
    still can.  Here the event loop, the timers and the kernel are fair, and the
    kill does come: the timer expires, its request moves up the channel, the
    loop handles it, and the process is reaped.  A shutdown waits for finitely
    many processes, none is added, so the loop leaves. -/

namespace BeamCompletion

open BeamApi BeamOs BeamLogs BeamService BeamManager BeamCommands BeamMainLoop
open BeamLifecycle BeamOperations BeamRefinement BeamConsistency BeamChannel BeamTickets
open BeamNetwork BeamForceKill BeamEscalation BeamShutdown
open Runs Fairness

/-! ## One step of a termination -/

/-- The service is Stopping on the process, with this in `pending_kill`. -/
def StoppingWith (name : String) (process : ServiceProcess) (kill : Option PendingKill)
    (m : Machine) : Prop :=
  ∃ s afterStop, m.get? name = some s ∧ s.state.status = .stopping process afterStop kill

/-- `waitpid` has returned the process between the two states. -/
def ReapedSince (process : ServiceProcess) (m₀ m : Machine) : Prop :=
  ∃ status, Effect.reaped process.mainPid status ∈ newEffects m₀ m

/-- SIGKILL has been sent to the process. -/
def WasKilled (process : ServiceProcess) (m : Machine) : Prop :=
  ∃ e ∈ m.trace, e ∈ sentEffects process SIGKILL

variable {name : String} {process : ServiceProcess} {kill : Option PendingKill}

theorem StoppingWith.unreaped {m : Machine} (h : StoppingWith name process kill m)
    (hm : Consistent m) : process ∈ unreaped m.trace := by
  obtain ⟨s, afterStop, hget, hst⟩ := h
  refine (hm.accounts.held process).mpr ⟨name, Option.bind_eq_some_iff.mpr ⟨s, hget, ?_⟩⟩
  rw [hst]
  rfl

/-- **A service that is Stopping stays so**, with its timer, until its process is reaped. -/
theorem transition_of_stopping {shutdown : Bool} {action : Action} {s : Service}
    {entry' : Option Service} {out : List Effect} {afterStop : AfterStop}
    (h : Transition shutdown name action (some s) out entry')
    (hst : s.state.status = .stopping process afterStop kill) :
    (∃ s' afterStop', entry' = some s' ∧ s'.state.status = .stopping process afterStop' kill
        ∧ Lacks abortsTimer out)
      ∨ ∃ status, .reaped process.mainPid status ∈ out := by
  have hother : ∀ {status : ServiceStatus}, s.state.status = status →
      (∀ afterStop, status ≠ .stopping process afterStop kill) → False :=
    fun hstatus hne => hne afterStop (hstatus.symm.trans hst)
  have hlive : isDead s.state.status = true → False := by
    intro hdead
    rw [hst] at hdead
    exact nomatch hdead
  cases h with
  | start _ hdead _ | stopDead hdead _ | pruneDead hdead | restartDead _ hdead _ =>
      exact (hlive hdead).elim
  | freeze hst' _ | thaw hst' _ | terminateFrozen _ hst' _ | terminateRunning _ hst' _ _ =>
      exact (hother hst' nofun).elim
  | keep hu => exact Or.inl ⟨_, afterStop, rfl, hu.status_eq.trans hst, .nil⟩
  | signal _ hout =>
      refine Or.inl ⟨s, afterStop, rfl, hst, ?_⟩
      rcases hout with ⟨cmd, rfl⟩ | ⟨sig, rfl⟩
      · exact .cons rfl .nil
      · exact lacks_sent rfl rfl
  | @log _ _ line hs => exact Or.inl ⟨_, afterStop, rfl, hs ▸ hst, .nil⟩
  | merge _ hst' hu =>
      cases hst'.symm.trans hst
      exact Or.inl ⟨_, _, rfl, hu.status_eq, .nil⟩
  | exited hst' _ => rcases hst' with hst' | hst' <;> exact (hother hst' nofun).elim
  | stopped hst' _ | pruned hst' | stranded _ hst' _ _ =>
      cases hst'.symm.trans hst
      exact Or.inr ⟨_, List.mem_cons_self⟩
  | restarted _ hst' _ =>
      cases hst'.symm.trans hst
      exact Or.inr ⟨_, List.mem_append_left _ List.mem_cons_self⟩

/-- The same, for a lifecycle step and the timers. -/
theorem stopping_beat {sys sys' : System} {label : Label} (hf : Fenced sys)
    (h : Net sys (some label) sys') (hstop : StoppingWith name process kill sys.machine) :
    (StoppingWith name process kill sys'.machine
        ∧ ∀ timer ∈ sys.tasks.timers, timer.request.name = name → timer ∈ sys'.tasks.timers)
      ∨ ReapedSince process sys.machine sys'.machine := by
  obtain ⟨s, afterStop, hget, hst⟩ := hstop
  cases h with
  | @beat _ m' out hstep hout _ _ =>
      rw [ReapedSince]
      rw [newEffects_of_append hout]
      cases hstep with
      | @act acted action out' entry ht =>
          rw [write_trace] at hout
          obtain rfl := List.append_cancel_left hout
          by_cases hname : acted = name
          · subst hname
            rw [hget] at ht
            rcases transition_of_stopping ht hst with ⟨s', afterStop', rfl, hst', hlacks⟩ | hreaped
            · refine Or.inl ⟨⟨s', afterStop', get?_put_self, hst'⟩, fun timer hmem _ => ?_⟩
              exact mem_timers_after hmem fun habort => nomatch hlacks _ habort
            · exact Or.inr hreaped
          · refine Or.inl ⟨⟨s, afterStop, ?_, hst⟩, fun timer hmem hrequest => ?_⟩
            · rw [get?_write, if_neg hname]
              exact hget
            · refine mem_timers_after hmem fun habort => hname ?_
              -- the fence: the handle the acted entry shows is that of its own timer
              obtain ⟨process', hshow⟩ := transition_aborts ht habort
              exact ((hf.timers acted process' timer.ticket hshow ⟨timer, hmem, rfl⟩).1).symm.trans
                hrequest
      | foreign _ =>
          obtain rfl := List.append_cancel_left hout
          refine Or.inl ⟨⟨s, afterStop, hget, hst⟩, fun timer hmem _ => ?_⟩
          exact mem_timers_after hmem fun habort => nomatch List.mem_singleton.mp habort
      | shutdown _ _ =>
          obtain rfl := List.self_eq_append_right.mp hout
          exact Or.inl ⟨⟨s, afterStop, hget, hst⟩, fun timer hmem _ => hmem⟩

/-! ## What a step does to a termination -/

theorem sysStep_trace {sys sys' : System} {move : SysMove} (h : SysStep sys move sys') :
    sys.machine.trace <+: sys'.machine.trace := by
  cases h with
  | received _ _ hevent _ _ =>
      obtain ⟨labels, hrun, -⟩ := handleEvent_ok hevent
      exact run_trace hrun
  | logged hstep =>
      obtain ⟨labels, hrun⟩ := step_ok hstep
      exact run_trace hrun
  | posted _ _ | probeSent _ _ | probeEnded _ | timerSent _ _ => exact List.prefix_rfl

theorem ReapedSince.append {m₀ m m' : Machine} (h : m₀.trace <+: m.trace)
    (h' : m.trace <+: m'.trace)
    (hreaped : ReapedSince process m₀ m ∨ ReapedSince process m m') : ReapedSince process m₀ m' := by
  rw [ReapedSince]
  rw [newEffects_trans h h']
  rcases hreaped with ⟨status, hmem⟩ | ⟨status, hmem⟩
  · exact ⟨status, List.mem_append_left _ hmem⟩
  · exact ⟨status, List.mem_append_right _ hmem⟩

/-- The termination goes on after the state `sys`, or its process has been reaped. -/
def GoesOn (name : String) (process : ServiceProcess) (kill : Option PendingKill)
    (sys sys' : System) : Prop :=
  (StoppingWith name process kill sys'.machine
      ∧ ∀ timer ∈ sys.tasks.timers, timer.request.name = name → timer ∈ sys'.tasks.timers)
    ∨ ReapedSince process sys.machine sys'.machine

/-- The step lemma: the termination goes on, and a timer of it that is gone has
    put its request on the channel. -/
theorem stopping_step {sys sys' : System} {move : SysMove} (hf : Fenced sys)
    (h : SysStep sys move sys') (hstop : StoppingWith name process kill sys.machine) :
    (StoppingWith name process kill sys'.machine
        ∧ ∀ timer ∈ sys.tasks.timers, timer.request.name = name → timer ∈ sys'.tasks.timers
          ∨ ∃ credentials, .forceKill timer.request credentials ∈ sys'.queue)
      ∨ ReapedSince process sys.machine sys'.machine := by
  cases h with
  | received hqueue _ hevent hspawns hfresh =>
      have hI : ∀ {sys₁ : System} {label : Option Label} {sys₂ : System}, Fenced sys₁ →
          (sys.machine.trace <+: sys₁.machine.trace ∧ GoesOn name process kill sys sys₁) →
          (∃ l, label = some l) → Net sys₁ label sys₂ →
          sys.machine.trace <+: sys₂.machine.trace ∧ GoesOn name process kill sys sys₂ := by
        rintro sys₁ label sys₂ hf₁ ⟨hpre, hon⟩ ⟨l, rfl⟩ hnet
        have hnext : sys₁.machine.trace <+: sys₂.machine.trace := by
          cases hnet with
          | beat _ hout _ _ => exact ⟨_, hout.symm⟩
        refine ⟨hpre.trans hnext, ?_⟩
        rcases hon with ⟨hstop₁, htimers⟩ | hreaped
        · rcases stopping_beat hf₁ hnet hstop₁ with ⟨hstop₂, htimers'⟩ | hreaped
          · exact Or.inl ⟨hstop₂, fun timer hmem hname => htimers' timer (htimers timer hmem hname) hname⟩
          · exact Or.inr (.append hpre hnext (Or.inr hreaped))
        · exact Or.inr (.append hpre hnext (Or.inl hreaped))
      have hend := (beats_invariant
        (I := fun sys₁ => sys.machine.trace <+: sys₁.machine.trace ∧ GoesOn name process kill sys sys₁)
        (fun hf₁ hI₁ hnet => hI hf₁ hI₁ ⟨_, rfl⟩ hnet) hf
        ⟨List.prefix_rfl, Or.inl ⟨hstop, fun _ hmem _ => hmem⟩⟩ hevent hspawns hfresh).2
      rcases hend with ⟨hstop', htimers⟩ | hreaped
      · exact Or.inl ⟨hstop', fun timer hmem hname => Or.inl (htimers timer hmem hname)⟩
      · exact Or.inr hreaped
  | posted _ _ | probeSent _ _ | probeEnded _ =>
      exact Or.inl ⟨hstop, fun timer hmem _ => Or.inl hmem⟩
  | @timerSent sent credentials hsent _ =>
      refine Or.inl ⟨hstop, fun timer hmem _ => ?_⟩
      by_cases heq : timer = sent
      · subst heq
        exact Or.inr ⟨credentials, List.mem_append_right _ List.mem_cons_self⟩
      · exact Or.inl ((List.mem_erase_of_ne heq).mpr hmem)
  | logged hstep =>
      rcases stopping_beat hf (beat_of_logged hf hstep) hstop with ⟨hstop', htimers⟩ | hreaped
      · exact Or.inl ⟨hstop', fun timer hmem hname => Or.inl (htimers timer hmem hname)⟩
      · exact Or.inr hreaped

/-- The channel grows at its end, or its first event is received. -/
theorem queue_step {sys sys' : System} {move : SysMove} (h : SysStep sys move sys') :
    (∃ new, sys'.queue = sys.queue ++ new ∧ ∀ os message reply, move ≠ .received os message reply)
      ∨ ∃ os message reply, move = .received os message reply ∧ sys.queue = message :: sys'.queue := by
  cases h with
  | received hqueue _ _ _ _ => exact Or.inr ⟨_, _, _, rfl, hqueue⟩
  | posted _ _ | probeSent _ _ | timerSent _ _ => exact Or.inl ⟨_, rfl, fun _ _ _ => SysMove.noConfusion⟩
  | probeEnded _ | logged _ =>
      exact Or.inl ⟨[], (List.append_nil _).symm, fun _ _ _ => SysMove.noConfusion⟩

/-- A force-kill with the token of the termination kills. -/
theorem received_kills {sys sys' : System} {os : Os} {reply : Reply} {pending : PendingKill}
    {credentials : Credentials}
    (h : SysStep sys (.received os (.forceKill ⟨name, process, pending.token⟩ credentials) reply) sys')
    (hstop : StoppingWith name process (some pending) sys.machine) : WasKilled process sys'.machine := by
  obtain ⟨s, afterStop, hget, hst⟩ := hstop
  cases h with
  | received _ _ hevent _ _ =>
      obtain ⟨⟨result, m₁⟩, hcmd, hreply⟩ := bind_eq_ok.mp hevent
      cases hreply
      obtain ⟨⟨_, m₂⟩, hforce, hdone⟩ := bind_eq_ok.mp hcmd
      cases hdone
      obtain rfl := forceKillService_hits hforce hget hst
      rw [WasKilled]
      show ∃ e ∈ sys.machine.trace ++ sentEffects process SIGKILL, _
      have hsends : ∃ e, e ∈ sentEffects process SIGKILL := by
        rw [sentEffects]
        cases process.monitorTx <;> exact ⟨_, List.mem_cons_self⟩
      obtain ⟨e, he⟩ := hsends
      exact ⟨e, List.mem_append_right _ he, he⟩

/-! ## Fair executions -/

/-- The main loop has left, or beam-init has exited with its bootstrap service. -/
def Ended (sys : System) : Prop := afterEvent sys.machine ≠ .next

instance (sys : System) : Decidable (Ended sys) :=
  inferInstanceAs (Decidable (afterEvent sys.machine ≠ .next))

/-- **What is assumed of the runtime and the kernel**, until beam-init ends. -/
structure Fair (e : Execution SysStep) : Prop where
  /-- The loop comes back to take an event off the channel. -/
  receives : ∀ i, (e.state i).queue ≠ [] → Eventually (fun j => Ended (e.state j)
    ∨ ∃ os message reply, e.label j = some (.received os message reply)) i
  /-- A grace timer is aborted, or it expires and finds room on the channel. -/
  expires : ∀ i, ∀ timer ∈ (e.state i).tasks.timers, Eventually (fun j => Ended (e.state j)
    ∨ timer ∉ (e.state j).tasks.timers) i
  /-- A child that was sent SIGKILL dies, and a SIGCHLD makes the loop reap it. -/
  dies : ∀ i process, process ∈ unreaped (e.state i).machine.trace →
    WasKilled process (e.state i).machine → Eventually (fun j => Ended (e.state j)
      ∨ ReapedSince process (e.state i).machine (e.state j).machine) i

/-- **What is on the channel is received**: it moves up until it is the first. -/
theorem message_received {e : Execution SysStep}
    (hreceives : ∀ i, (e.state i).queue ≠ [] → Eventually (fun j => Ended (e.state j)
      ∨ ∃ os message reply, e.label j = some (.received os message reply)) i)
    {i k : Nat} {message : Message} (hk : (e.state i).queue[k]? = some message) :
    Eventually (fun j => Ended (e.state j)
      ∨ ∃ os reply, e.label j = some (.received os message reply)) i := by
  induction k using Nat.strong_induction_on generalizing i with
  | _ k ih =>
      by_cases hend : Eventually (fun j => Ended (e.state j)) i
      · exact hend.mono fun j _ => Or.inl
      · have hne : (e.state i).queue ≠ [] := by
          intro hnil
          rw [hnil] at hk
          cases hk
        have hsome : Eventually
            (fun j => ∃ os message reply, e.label j = some (.received os message reply)) i :=
          (hreceives i hne).mono fun j hij hj =>
            hj.resolve_left fun hended => hend ⟨j, hij, hended⟩
        obtain ⟨j, hij, ⟨os, first, reply, hlabel⟩, hfirst⟩ := hsome.first
        -- until the loop receives an event the message keeps its place
        have hj : (e.state j).queue[k]? = some message := by
          refine e.holds_until (P := fun sys => sys.queue[k]? = some message) hij hk ?_
          intro k' hik hkj l hl hstep hplace
          rcases queue_step hstep with ⟨new, hqueue, -⟩ | ⟨os, message, reply, rfl, -⟩
          · rw [hqueue, List.getElem?_append_left (List.getElem?_eq_some_iff.mp hplace).1]
            exact hplace
          · exact absurd ⟨os, message, reply, hl⟩ (hfirst k' hik hkj)
        have hmove := e.moves j
        rw [hlabel] at hmove
        rcases queue_step hmove with ⟨_, _, hnot⟩ | ⟨os', first', reply', heq, hqueue⟩
        · exact absurd rfl (hnot os first reply)
        · cases heq
          rw [hqueue] at hj
          cases k with
          | zero =>
              cases hj
              exact ⟨j, hij, Or.inr ⟨os, reply, hlabel⟩⟩
          | succ k => exact .of_le (Nat.le_succ_of_le hij) (ih k (Nat.lt_succ_self k) hj)

section Progress

variable {e : Execution SysStep} {i j : Nat}

theorem reachable_state (h0 : SysReachable (e.state 0)) (i : Nat) : SysReachable (e.state i) :=
  e.keeps SysReachable.snoc (Nat.zero_le i) h0

theorem state_trace (hij : i ≤ j) : (e.state i).machine.trace <+: (e.state j).machine.trace := by
  obtain ⟨moves, hrun⟩ := e.run hij
  exact hrun.relates (R := fun sys sys' => sys.machine.trace <+: sys'.machine.trace)
    (fun _ => List.prefix_rfl) List.IsPrefix.trans sysStep_trace

/-- The goal of a termination that was in progress at the instant `i`. -/
def Over (e : Execution SysStep) (process : ServiceProcess) (i j : Nat) : Prop :=
  Ended (e.state j) ∨ ReapedSince process (e.state i).machine (e.state j).machine

/-- What is over since a later instant is over since an earlier one. -/
theorem Over.since (hij : i ≤ j) (h : Eventually (Over e process j) j) :
    Eventually (Over e process i) j := by
  refine h.mono fun k hjk hover => hover.imp_right fun hreaped => ?_
  exact .append (state_trace hij) (state_trace hjk) (Or.inr hreaped)

/-- The step lemma along an execution. -/
theorem stopping_next (h0 : SysReachable (e.state 0))
    (hstop : StoppingWith name process kill (e.state j).machine) :
    (StoppingWith name process kill (e.state (j + 1)).machine
        ∧ ∀ timer ∈ (e.state j).tasks.timers, timer.request.name = name →
          timer ∈ (e.state (j + 1)).tasks.timers
            ∨ ∃ credentials, .forceKill timer.request credentials ∈ (e.state (j + 1)).queue)
      ∨ ReapedSince process (e.state j).machine (e.state (j + 1)).machine := by
  have hmove := e.moves j
  cases hlabel : e.label j with
  | none =>
      rw [hlabel] at hmove
      rw [show e.state (j + 1) = e.state j from hmove]
      exact Or.inl ⟨hstop, fun _ hmem _ => Or.inl hmem⟩
  | some move =>
      rw [hlabel] at hmove
      exact stopping_step (sysReachable_fenced (reachable_state h0 j)) hmove hstop

/-- A process that was killed is reaped. -/
theorem killed_over (h0 : SysReachable (e.state 0)) (hfair : Fair e)
    (hstop : StoppingWith name process kill (e.state i).machine)
    (hkilled : WasKilled process (e.state i).machine) : Eventually (Over e process i) i :=
  hfair.dies i process
    (hstop.unreaped (sysReachable_fenced (reachable_state h0 i)).consistent) hkilled

/-- The termination goes on until its process is reaped. -/
theorem stopping_until (h0 : SysReachable (e.state 0)) (hij : i ≤ j)
    (hstop : StoppingWith name process kill (e.state i).machine) :
    StoppingWith name process kill (e.state j).machine
      ∨ ReapedSince process (e.state i).machine (e.state j).machine := by
  induction j, hij using Nat.le_induction with
  | base => exact Or.inl hstop
  | succ j hij ih =>
      have hnext : (e.state j).machine.trace <+: (e.state (j + 1)).machine.trace :=
        state_trace (Nat.le_succ j)
      rcases ih with hstop' | hreaped
      · rcases stopping_next h0 hstop' with ⟨hstop', -⟩ | hreaped
        · exact Or.inl hstop'
        · exact Or.inr (.append (state_trace hij) hnext (Or.inr hreaped))
      · exact Or.inr (.append (state_trace hij) hnext (Or.inl hreaped))

/-- **A request on the channel is handled**, and kills if the process is still there. -/
theorem queued_over (h0 : SysReachable (e.state 0)) (hfair : Fair e) {pending : PendingKill}
    {credentials : Credentials}
    (hstop : StoppingWith name process (some pending) (e.state i).machine)
    (hqueued : .forceKill ⟨name, process, pending.token⟩ credentials ∈ (e.state i).queue) :
    Eventually (Over e process i) i := by
  obtain ⟨k, hk⟩ := List.getElem?_of_mem hqueued
  refine (message_received hfair.receives hk).trans fun j hij hj => ?_
  rcases hj with hended | ⟨os, reply, hlabel⟩
  · exact .now (Or.inl hended)
  · have hmove := e.moves j
    rw [hlabel] at hmove
    rcases stopping_until h0 hij hstop with hstop' | hreaped
    · rcases stopping_until h0 (Nat.le_succ j) hstop' with hnext | hreaped
      · exact .of_le (Nat.le_succ j) (Over.since (Nat.le_succ_of_le hij)
          (killed_over h0 hfair hnext (received_kills hmove hstop')))
      · refine ⟨j + 1, Nat.le_succ j, Or.inr ?_⟩
        exact .append (state_trace hij) (state_trace (Nat.le_succ j)) (Or.inr hreaped)
    · exact .now (Or.inr hreaped)

/-- **A grace timer expires**, or it is aborted because its process was reaped. -/
theorem timer_over (h0 : SysReachable (e.state 0)) (hfair : Fair e) {pending : PendingKill}
    {timer : GraceTimer} (hstop : StoppingWith name process (some pending) (e.state i).machine)
    (hmem : timer ∈ (e.state i).tasks.timers)
    (hrequest : timer.request = ⟨name, process, pending.token⟩) : Eventually (Over e process i) i := by
  by_cases hend : Eventually (fun j => Ended (e.state j)) i
  · exact hend.mono fun j _ => Or.inl
  · have hleave : ∃ j, i ≤ j ∧ ¬ (StoppingWith name process (some pending) (e.state j).machine
        ∧ timer ∈ (e.state j).tasks.timers) := by
      obtain ⟨j, hij, hj⟩ := hfair.expires i timer hmem
      exact ⟨j, hij, fun hboth => hj.elim (fun hended => hend ⟨j, hij, hended⟩) fun hgone =>
        hgone hboth.2⟩
    have hgoal : Eventually (fun j => Over e process i j
        ∨ StoppingWith name process (some pending) (e.state j).machine
          ∧ ∃ credentials,
            .forceKill ⟨name, process, pending.token⟩ credentials ∈ (e.state j).queue) i := by
      refine eventually_of_unless (fun j hij hj => ?_) hleave ⟨hstop, hmem⟩
      rcases stopping_next h0 hj.1 with ⟨hstop', htimers⟩ | hreaped
      · rcases htimers timer hj.2 (by rw [hrequest]) with hmem' | ⟨credentials, hqueued⟩
        · exact Or.inl ⟨hstop', hmem'⟩
        · rw [hrequest] at hqueued
          exact Or.inr (Or.inr ⟨hstop', credentials, hqueued⟩)
      · refine Or.inr (Or.inl (Or.inr ?_))
        exact .append (state_trace hij) (state_trace (Nat.le_succ j)) (Or.inr hreaped)
    refine hgoal.trans fun j hij hj => ?_
    rcases hj with hover | ⟨hstop', credentials, hqueued⟩
    · exact .now hover
    · exact Over.since hij (queued_over h0 hfair hstop' hqueued)

theorem stopping_over (h0 : SysReachable (e.state 0)) (hfair : Fair e)
    (hstop : StoppingWith name process kill (e.state i).machine) : Eventually (Over e process i) i := by
  obtain ⟨s, afterStop, hget, hst⟩ := hstop
  have hstop : StoppingWith name process kill (e.state i).machine := ⟨s, afterStop, hget, hst⟩
  obtain ⟨m₀, hsince, hkilled⟩ :=
    (sysReachable_escalates (reachable_state h0 i)).2 name s process afterStop kill hget hst
  rcases hkilled with ⟨e', hmem, he⟩ | ⟨pending, rfl, ⟨timer, hmem, hrequest⟩ | ⟨c, hqueued⟩⟩
  · refine killed_over h0 hfair hstop ⟨e', ?_, he⟩
    rw [newEffects_eq (since_extends hsince)]
    exact List.mem_append_right _ hmem
  · exact timer_over h0 hfair hstop hmem hrequest
  · exact queued_over h0 hfair hstop hqueued

end Progress

/-! ## Executions that end -/

theorem fair_of_ended {e : Execution SysStep} {n : Nat} (h : ∀ j, n ≤ j → Ended (e.state j)) :
    Fair e := by
  have hlate : ∀ i, ∃ j, i ≤ j ∧ Ended (e.state j) :=
    fun i => ⟨max i n, Nat.le_max_left i n, h _ (Nat.le_max_right i n)⟩
  constructor
  · intro i _
    exact (hlate i).imp fun j hj => ⟨hj.1, Or.inl hj.2⟩
  · intro i timer _
    exact (hlate i).imp fun j hj => ⟨hj.1, Or.inl hj.2⟩
  · intro i process _ _
    exact (hlate i).imp fun j hj => ⟨hj.1, Or.inl hj.2⟩

/-- Choices that can all be made, to an end, are a fair execution. -/
theorem exists_fair {sys sys' : System} {choices : List Choice}
    (h : performAll sys choices = some sys') (hend : Ended sys') :
    ∃ e : Execution SysStep, e.state 0 = sys ∧ Fair e := by
  have hrun : ∃ moves, Run SysStep sys moves sys' := by
    clear hend
    induction choices generalizing sys with
    | nil => cases h; exact ⟨[], .nil _⟩
    | cons choice choices ih =>
        rw [performAll, List.foldlM_cons] at h
        obtain ⟨mid, hfirst, hrest⟩ := Option.bind_eq_some_iff.mp h
        obtain ⟨move, hstep⟩ := perform_ok hfirst
        obtain ⟨moves, hrun⟩ := ih hrest
        exact ⟨_, .cons hstep hrun⟩
  obtain ⟨moves, hrun⟩ := hrun
  obtain ⟨e, hstart, hrest⟩ := exists_execution hrun
  exact ⟨e, hstart, fair_of_ended (n := moves.length) fun j hj => by rw [hrest j hj]; exact hend⟩

/-- The force-kill of `web` is handled, and the shutdown begins. -/
def thenTerminated : List Choice :=
  [.receive (steadyOs 0 2 []), .post (.signal SIGTERM), .receive terminateAll.1]

/-- Both processes have exited. -/
def thenReaped : List Choice :=
  [.post (.signal SIGCHLD), .receive (steadyOs 0 0
    [⟨100, ⟨9⟩, (steadyOs 0 0 []).start⟩, ⟨50, ⟨15⟩, (steadyOs 0 0 []).start⟩])]

/-- **HEADLINE.** In every fair execution, a service that is Stopping on a process
    does not stay so: the process is reaped, unless beam-init ends before. -/
theorem stop_completes {e : Execution SysStep} (h0 : SysReachable (e.state 0)) (hfair : Fair e)
    {i : Nat} {s : Service} {afterStop : AfterStop}
    (hget : (e.state i).machine.get? name = some s)
    (hst : s.state.status = .stopping process afterStop kill) :
    Eventually (fun j => Ended (e.state j)
      ∨ ∃ status, .reaped process.mainPid status ∈ newEffects (e.state i).machine (e.state j).machine) i :=
  stopping_over h0 hfair ⟨s, afterStop, hget, hst⟩

/-- Here `web`, whose force-kill is on the channel. -/
theorem stop_completes_web : ∃ e : Execution SysStep, e.state 0 = systemAfter stopExpired
    ∧ Eventually (fun j => Ended (e.state j) ∨ ∃ status,
      .reaped 100 status ∈ newEffects (e.state 0).machine (e.state j).machine) 0 := by
  obtain ⟨sys', hall, hend⟩ := (Option.any_eq_true _ _).mp (show (performAll
    (systemAfter stopExpired) (thenTerminated ++ thenReaped)).any
      (fun sys => decide (Ended sys)) = true by decide +kernel)
  obtain ⟨e, hstart, hfair⟩ := exists_fair hall (of_decide_eq_true hend)
  have hstatus : ((systemAfter stopExpired).machine.get? "web").map (·.state.status)
      = some (.stopping ⟨100, none, 0⟩ .stop (some ⟨⟨1⟩, 1⟩)) := by decide +kernel
  obtain ⟨s, hget, hst⟩ := Option.map_eq_some_iff.mp hstatus
  rw [← hstart] at hget
  have h0 : SysReachable (e.state 0) := hstart ▸ systemAfter_reachable (by decide +kernel)
  exact ⟨e, hstart, stop_completes h0 hfair hget hst⟩

/-! ## Shutdown -/

theorem leave_of_ended {sys : System} (hshut : sys.machine.mgr.shutdown = true) (h : Ended sys) :
    afterEvent sys.machine = .leave := by
  by_contra hnot
  refine h ?_
  rw [afterEvent] at hnot ⊢
  by_cases hcomplete : shutdownComplete sys.machine = true
  · rw [if_pos hcomplete] at hnot
    exact absurd rfl hnot
  · rw [if_neg hcomplete]
    exact if_pos hshut

theorem flagKept_sysStep {sys sys' : System} {move : SysMove} (h : SysStep sys move sys') :
    FlagKept sys.machine sys'.machine := by
  cases h with
  | received _ _ hevent hspawns _ => exact flagKept_run (.single (.handled hevent hspawns))
  | logged hstep => exact flagKept_run (.single hstep)
  | posted _ _ | probeSent _ _ | probeEnded _ | timerSent _ _ => exact fun hshut => ⟨hshut, .refl _⟩

/-- Without a spawn the children only get fewer, and a reaped one is gone. -/
theorem unreaped_shrinks {out : List Effect} (hout : Lacks startsSomething out)
    (children : List ServiceProcess) :
    (out.foldl trackChild children).Sublist children
      ∧ ∀ process status, .reaped process.mainPid status ∈ out →
        process ∉ out.foldl trackChild children := by
  induction out generalizing children with
  | nil => exact ⟨List.Sublist.refl _, nofun⟩
  | cons e out ih =>
      obtain ⟨he, hrest⟩ := List.forall_mem_cons.mp hout
      have hfirst : (trackChild children e).Sublist children := by
        cases e with
        | spawned _ _ => exact nomatch he
        | reaped _ _ => exact List.filter_sublist
        | _ => exact List.Sublist.refl _
      obtain ⟨hsub, hgone⟩ := ih hrest (trackChild children e)
      refine ⟨hsub.trans hfirst, fun process status hmem => ?_⟩
      rcases List.mem_cons.mp hmem with rfl | hmem
      · intro hin
        have := (List.mem_filter.mp (hsub.subset hin)).2
        exact absurd rfl (of_decide_eq_true this)
      · exact hgone process status hmem

/-- **HEADLINE.** In every fair execution, once the shutdown has begun the main
    loop leaves. -/
theorem shutdown_completes {e : Execution SysStep} (h0 : SysReachable (e.state 0)) (hfair : Fair e)
    {i : Nat} (hshut : (e.state i).machine.mgr.shutdown = true) :
    Eventually (fun j => afterEvent (e.state j).machine = .leave) i := by
  refine eventually_of_descent (P := fun j => (e.state j).machine.mgr.shutdown = true)
    (fun j => (unreaped (e.state j).machine.trace).length) (fun j hij hshut => ?_) hshut
  have hm : Consistent (e.state j).machine := (sysReachable_fenced (reachable_state h0 j)).consistent
  cases hchildren : unreaped (e.state j).machine.trace with
  | nil =>
      refine .now (Or.inl ?_)
      rw [afterEvent]
      exact if_pos ((shutdownComplete_iff hm hshut).mpr hchildren)
  | cons process rest =>
      -- some service is Stopping on this process, and its termination will be over
      have hmem : process ∈ unreaped (e.state j).machine.trace := hchildren ▸ List.mem_cons_self
      obtain ⟨name, hheld⟩ := (hm.accounts.held process).mp hmem
      obtain ⟨s, hget, hp⟩ := Option.bind_eq_some_iff.mp hheld
      have hstop : ∃ afterStop kill, s.state.status = .stopping process afterStop kill := by
        rcases isSettled_iff.mp (hm.settled hshut name s hget) with hdead | ⟨p, kill, hst | hst⟩
        · rw [process?_of_isDead hdead] at hp
          cases hp
        · rw [hst] at hp
          cases hp
          exact ⟨_, _, hst⟩
        · rw [hst] at hp
          cases hp
          exact ⟨_, _, hst⟩
      obtain ⟨afterStop, kill, hst⟩ := hstop
      refine (stopping_over h0 hfair ⟨s, afterStop, hget, hst⟩).mono fun k hjk hover => ?_
      obtain ⟨moves, hrun⟩ := e.run hjk
      obtain ⟨hshut', hnew⟩ := hrun.relates (R := fun sys sys' => FlagKept sys.machine sys'.machine)
        (fun _ hshut => ⟨hshut, .refl _⟩) FlagKept.trans flagKept_sysStep hshut
      rcases hover with hended | ⟨status, hreaped⟩
      · exact Or.inl (leave_of_ended hshut' hended)
      · obtain ⟨out, hout, hlacks⟩ := hnew.trace
        rw [newEffects_of_append hout] at hreaped
        obtain ⟨hsub, hgone⟩ := unreaped_shrinks hlacks (unreaped (e.state j).machine.trace)
        refine Or.inr ⟨hshut', ?_⟩
        rw [hout, unreaped_append]
        rw [← hchildren]
        refine lt_of_le_of_ne hsub.length_le fun hlen => hgone process status hreaped ?_
        rw [hsub.eq_of_length hlen]
        exact hmem

/-- Here `web` is still Stopping when SIGTERM is handled. -/
theorem shutdown_completes_web : ∃ e : Execution SysStep,
    e.state 0 = systemAfter (stopExpired ++ thenTerminated)
      ∧ Eventually (fun j => afterEvent (e.state j).machine = .leave) 0 := by
  obtain ⟨sys', hall, hend⟩ := (Option.any_eq_true _ _).mp (show (performAll
    (systemAfter (stopExpired ++ thenTerminated)) thenReaped).any
      (fun sys => decide (Ended sys)) = true by decide +kernel)
  obtain ⟨e, hstart, hfair⟩ := exists_fair hall (of_decide_eq_true hend)
  have h0 : SysReachable (e.state 0) := hstart ▸ systemAfter_reachable (by decide +kernel)
  have hshut : (e.state 0).machine.mgr.shutdown = true := by
    rw [hstart]
    decide +kernel
  exact ⟨e, hstart, shutdown_completes h0 hfair hshut⟩

end BeamCompletion
