import BeamInit.Network

/-! # Force-kill — the grace timer of one termination

    A timer that has expired may find its service reaped, restarted, re-created
    under the same name or stopped once more.  The token it carries was made
    when one process was terminated, and only that process is killed for it. -/

namespace BeamForceKill

open BeamApi BeamOs BeamService BeamManager BeamCommands BeamMainLoop BeamLifecycle BeamOperations
open BeamRefinement BeamConsistency BeamChannel BeamTickets BeamNetwork Runs Fence

/-! ## Where the tokens come from -/

/-- At some point of the trace the process of the ticket was terminated, and the
    token was made for it. -/
def MadeIn (kill : ForceKill) (trace : List Effect) : Prop :=
  ∃ trace', EndsWith kill trace' ∧ trace' <+: trace

/-- Every force-kill under way was made by a termination. -/
def AllMade (sys : System) : Prop :=
  ∀ kill ∈ killsUnderway sys.tasks sys.queue, MadeIn kill sys.machine.trace

theorem endsWith_append {kill : ForceKill} {out : List Effect} (trace : List Effect)
    (h : EndsWith kill out) : EndsWith kill (trace ++ out) := by
  obtain ⟨before, task, period, rfl⟩ := h
  exact ⟨trace ++ before, task, period, by simp only [List.append_assoc]⟩

/-- A ticket among the effects of a lifecycle step was made by that step. -/
theorem madeIn_step {m m' : Machine} {label : Label} {out : List Effect} {kill : ForceKill}
    (h : Lifecycle m label m') (hout : m'.trace = m.trace ++ out)
    (hkill : kill ∈ out.filterMap issuedKill) : MadeIn kill m'.trace := by
  cases h with
  | @act name action out' entry ht =>
      rw [write_trace] at hout ⊢
      obtain rfl := List.append_cancel_left hout
      obtain ⟨-, hends⟩ := (transition_kills ht).2 kill hkill
      exact ⟨_, endsWith_append m.trace hends, List.prefix_refl _⟩
  | foreign _ =>
      obtain rfl := List.append_cancel_left hout
      exact nomatch hkill
  | shutdown _ _ =>
      obtain rfl := List.self_eq_append_right.mp hout
      exact nomatch hkill

theorem allMade_net {sys sys' : System} {label : Option Label} (hall : AllMade sys)
    (h : Net sys label sys') : AllMade sys' := by
  intro kill hmem
  cases h with
  | @beat _ m' out hstep hout _ _ =>
      rcases kills_after hmem with hold | hnew
      · obtain ⟨trace', hends, hpre⟩ := hall kill hold
        exact ⟨trace', hends, hpre.trans ⟨out, hout.symm⟩⟩
      · exact madeIn_step hstep hout hnew
  | moved hkills _ _ => exact hall kill (hkills hmem)

theorem sysReachable_allMade {sys : System} (h : SysReachable sys) : AllMade sys := by
  refine (net_invariant (fun files lines init kill hmem => ?_) (fun _ => allMade_net) h).2
  rcases hmem with ⟨timer, hmem, -⟩ | ⟨credentials, hmem⟩
  · exact nomatch hmem
  · exact nomatch List.mem_singleton.mp hmem

/-! ## Handling a force-kill -/

/-- A force-kill is a SIGKILL while its service shows the token, and nothing otherwise. -/
theorem forceKill_honoured {os : Os} {m m' : Machine} {kill : ForceKill}
    (h : forceKillService os m kill.name kill.token = .ok ((), m')) :
    m' = m ∨ ∃ process, killTable m kill.name = some (process, kill.token)
      ∧ m' = m.emit (sentEffects process SIGKILL) := by
  rcases forceKillService_ok h with rfl | ⟨s, process, afterStop, pending, hget, hst, htoken, rfl⟩
  · exact Or.inl rfl
  · refine Or.inr ⟨process, ?_, rfl⟩
    show (m.get? kill.name).bind _ = _
    rw [hget, Option.bind_some, hst, ← htoken]
    rfl

/-- **HEADLINE.** Whatever was queued before it, the handling of a force-kill
    changes nothing, or it sends one SIGKILL to the process whose termination
    made its token, on which its service is still Stopping. -/
theorem force_kill_hits_its_own_process {sys sys' : System} {os : Os} {message : Message}
    {reply : Reply} {name : String} {token : TerminationToken} {credentials : Credentials}
    (h : SysReachable sys) (hstep : SysStep sys (.received os message reply) sys')
    (hforce : message.event = .command (.forceKillService name token) credentials) :
    ∃ process, MadeIn ⟨name, process, token⟩ sys.machine.trace
      ∧ (sys'.machine = sys.machine
        ∨ (∃ s afterStop pending, sys.machine.get? name = some s
            ∧ s.state.status = .stopping process afterStop (some pending) ∧ pending.token = token)
          ∧ sys'.machine = sys.machine.emit (sentEffects process SIGKILL)) := by
  cases hstep with
  | @received _ rest _ _ m' hqueue _ hevent _ _ =>
      have hhead : message ∈ sys.queue := hqueue ▸ List.mem_cons_self
      cases message with
      | probeFailed probe => exact nomatch hforce
      | posted event =>
          have := sysReachable_posted h event hhead
          rw [show event = _ from hforce] at this
          exact nomatch this
      | forceKill kill credentials' =>
          cases hforce
          have hmem : kill ∈ killsUnderway sys.tasks sys.queue := Or.inr ⟨_, hhead⟩
          refine ⟨kill.item, sysReachable_allMade h kill hmem, ?_⟩
          obtain ⟨⟨result, m₁⟩, hcmd, hreply⟩ := bind_eq_ok.mp hevent
          cases hreply
          obtain ⟨⟨_, m₂⟩, hkill, hdone⟩ := bind_eq_ok.mp hcmd
          cases hdone
          rcases forceKill_honoured hkill with rfl | ⟨process, hshow, rfl⟩
          · exact Or.inl rfl
          · -- the fence: the process that shows the token is the one it was made for
            obtain rfl := (sysReachable_fenced h).kills.item_eq hmem hshow
            exact Or.inr ⟨killTable_some hshow, rfl⟩

/-! ## A grace period that runs out -/

/-- `web` is created and stopped, and its timer expires. -/
def stopExpired : List Choice :=
  [.receive (steadyOs 50 9 []), .post createWeb.2, .receive createWeb.1, .post stopWeb.2,
    .receive stopWeb.1, .fireTimer 0]

/-- Here the process 100 of `web`. -/
theorem force_kill_hits_its_own_process_web :
    ∃ process, MadeIn ⟨"web", process, ⟨1⟩⟩ (systemAfter stopExpired).machine.trace
      ∧ ((systemAfter (stopExpired ++ [.receive (steadyOs 0 2 [])])).machine
          = (systemAfter stopExpired).machine
        ∨ (∃ s afterStop pending, (systemAfter stopExpired).machine.get? "web" = some s
            ∧ s.state.status = .stopping process afterStop (some pending)
            ∧ pending.token = ⟨1⟩)
          ∧ (systemAfter (stopExpired ++ [.receive (steadyOs 0 2 [])])).machine
            = (systemAfter stopExpired).machine.emit (sentEffects process SIGKILL)) := by
  have hqueue : (systemAfter stopExpired).queue.head?
      = some (.forceKill ⟨"web", ⟨100, none, 0⟩, ⟨1⟩⟩ .root) := by decide +kernel
  have hreply : replyTo (steadyOs 0 2 []) (systemAfter stopExpired).machine
      (.command (.forceKillService "web" ⟨1⟩) .root) = some (.response (.ok .done)) := by
    decide +kernel
  exact force_kill_hits_its_own_process (systemAfter_reachable (by decide +kernel))
    (systemAfter_receive (by decide +kernel) hqueue hreply) rfl

end BeamForceKill
