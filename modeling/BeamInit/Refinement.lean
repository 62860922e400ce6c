import BeamInit.Operations

/-! # Refinement — every event is a run of lifecycle steps

    The commands, the signals and the probe failures the main loop handles, as
    runs of the abstract model, and the invariant rule that follows. -/

namespace BeamRefinement

open BeamApi BeamOs BeamLogs BeamService BeamManager BeamCommands BeamMainLoop BeamLifecycle
open BeamOperations Runs

section Events

variable {os : Os} {m m' : Machine} {credentials : Credentials} {name : String} {s : Service}

/-! ## Commands -/

/-- The service a command is about. -/
def target : Command → Option String
  | .createService name _ | .restartService name | .stopService name _ | .freezeService name
  | .thawService name | .showService name | .serviceLogs name _ | .notifyPtyAttached name
  | .notifyPtyDetached name | .sendSignal name _ | .forceKillService name _ => some name
  | .listServices => none

/-- The actions a command is there for. -/
def serves : Command → Action → Bool
  | .createService .., action => action = .create ∨ action = .start .user
  | .restartService _, action => action = .terminate (.restart .user)
  | .stopService _ prune, action => action = .terminate (if prune then .prune else .stop)
  | .freezeService _, action => action = .freeze ∨ action = .keep
  | .thawService _, action => action = .thaw ∨ action = .keep
  | .notifyPtyAttached _, action | .notifyPtyDetached _, action | .sendSignal .., action
  | .forceKillService .., action => action = .signal
  | .showService _, _ | .listServices, _ | .serviceLogs .., _ => false

/-- What a command must have found to do anything. -/
def Permits (m : Machine) (credentials : Credentials) (name : String) : Command → Prop
  | .createService .. => m.get? name = none
  | .forceKillService .. => True
  | _ => MayTouch m credentials name

/-- A command leaves everything as it was, or takes its actions on its target. -/
def Served (cmd : Command) (credentials : Credentials) (m m' : Machine) : Prop :=
  m' = m ∨ ∃ (name : String) (actions : List Action), target cmd = some name ∧ Permits m credentials name cmd
    ∧ Run Lifecycle m (actions.map (Label.act name)) m' ∧ ∀ action ∈ actions, serves cmd action

/-- One action on the target serves the command. -/
theorem served_single {cmd : Command} {action : Action} (htarget : target cmd = some name)
    (hpermit : Permits m credentials name cmd) (hserves : serves cmd action = true)
    (hstep : Lifecycle m (.act name action) m') : Served cmd credentials m m' :=
  Or.inr ⟨name, [action], htarget, hpermit, .single hstep,
    fun _ hmem => List.mem_singleton.mp hmem ▸ hserves⟩

/-- An answer without data is that of the operation. -/
theorem answerDone_ok {x : Except Panic (Outcome (Except ServiceError Unit))}
    {reply : Except ServiceError Response}
    (h : (do return answerDone (← x) : Except Panic _) = .ok (reply, m')) :
    ∃ result, x = .ok (result, m') ∧ reply = result.map (fun () => .done) := by
  obtain ⟨⟨result, m₁⟩, hx, h⟩ := bind_eq_ok.mp h
  cases h
  exact ⟨result, hx, rfl⟩

/-- **Every API command** is served by actions on the one service it names. -/
theorem handleApiCommand_ok {cmd : Command} {reply : Except ServiceError Response}
    (h : handleApiCommand os m cmd credentials = .ok (reply, m')) :
    Served cmd credentials m m' := by
  unfold handleApiCommand at h
  cases cmd with
  | createService name service =>
      dsimp only at h
      cases henv : serviceEnvironment os m credentials name service.env with
      | error e => rw [henv] at h; cases h; exact Or.inl rfl
      | ok env =>
          rw [henv] at h
          dsimp only at h
          cases hcreate : createService m name (requestedConfig service env credentials) with
          | mk result m₁ =>
              rw [hcreate] at h
              rcases createService_ok hcreate with ⟨rfl, e, rfl⟩ | ⟨rfl, hshut, hget, s, hs, hconfig, rfl⟩
              · cases h; exact Or.inl rfl
              · obtain ⟨⟨result, m₂⟩, hstart, h⟩ := bind_eq_ok.mp h
                cases h
                have hcred : s.checkCredentials credentials = .ok () :=
                  Service.checkCredentials_iff.mpr (Or.inr (by rw [hconfig]; rfl))
                obtain ⟨s', out, hentry, rfl⟩ := startService_ok hstart hshut get?_put_self hcred
                have hcreated : Lifecycle m (.act name .create) (m.put name s []) :=
                  show Lifecycle m _ (write m name (some s) []) from .act (hget ▸ .create hshut hs)
                refine Or.inr ⟨name, [.create, .start .user], rfl, hget,
                  .cons hcreated (.single (act_put get?_put_self (.start hshut ?_ ?_))), ?_⟩
                · rw [hs.status]; rfl
                · exact (startEntry_ok hentry (Copy.refl s)).1
                · intro action hmem
                  rcases List.mem_pair.mp hmem with rfl | rfl <;> rfl
  | restartService name =>
      obtain ⟨result, hcmd, -⟩ := answerDone_ok h
      rcases stopServiceCmd_ok hcmd with ⟨rfl, -⟩ | ⟨htouch, hstep, -⟩
      · exact Or.inl rfl
      · exact served_single rfl htouch rfl hstep
  | stopService name prune =>
      obtain ⟨result, hcmd, -⟩ := answerDone_ok h
      rcases stopServiceCmd_ok hcmd with ⟨rfl, -⟩ | ⟨htouch, hstep, -⟩
      · exact Or.inl rfl
      · exact served_single rfl htouch (by simp [serves]) hstep
  | freezeService name =>
      obtain ⟨result, hcmd, -⟩ := answerDone_ok h
      rcases freezeService_ok hcmd with rfl | ⟨htouch, hstep | hstep⟩
      · exact Or.inl rfl
      · exact served_single rfl htouch rfl hstep
      · exact served_single rfl htouch rfl hstep
  | thawService name =>
      obtain ⟨result, hcmd, -⟩ := answerDone_ok h
      rcases thawService_ok hcmd with rfl | ⟨htouch, hstep | hstep⟩
      · exact Or.inl rfl
      · exact served_single rfl htouch rfl hstep
      · exact served_single rfl htouch rfl hstep
  | showService name =>
      dsimp only at h
      cases hget : getService m credentials name with
      | error e => rw [hget] at h; cases h; exact Or.inl rfl
      | ok s =>
          rw [hget] at h
          obtain ⟨_, _, h⟩ := bind_eq_ok.mp h
          cases h
          exact Or.inl rfl
  | listServices =>
      obtain ⟨_, _, h⟩ := bind_eq_ok.mp h
      cases h
      exact Or.inl rfl
  | serviceLogs name follow => cases follow <;> · cases h; exact Or.inl rfl
  | notifyPtyAttached name | notifyPtyDetached name =>
      obtain ⟨result, hcmd, -⟩ := answerDone_ok h
      rcases notifyPty_ok hcmd with rfl | ⟨htouch, hstep⟩
      · exact Or.inl rfl
      · exact served_single rfl htouch rfl hstep
  | sendSignal name sig =>
      obtain ⟨result, hcmd, -⟩ := answerDone_ok h
      rcases sendSignalRequest_ok hcmd with rfl | ⟨htouch, hstep⟩
      · exact Or.inl rfl
      · exact served_single rfl htouch rfl hstep
  | forceKillService name token =>
      obtain ⟨⟨_, m₁⟩, hkill, h⟩ := bind_eq_ok.mp h
      cases h
      rcases forceKillService_ok hkill with rfl | ⟨s, process, afterStop, kill, hget, hst, -, rfl⟩
      · exact Or.inl rfl
      · exact served_single rfl trivial rfl
          (act_signal hget (by rw [hst]; rfl) (Or.inr ⟨SIGKILL, rfl⟩))

/-! ## Events -/

/-- A probe failure is refused, or terminates the service on behalf of its owner;
    a failure to restart is pushed to the log of the service. -/
theorem handleProbeFailed_ok (h : handleProbeFailed os m name = .ok m') :
    ∃ result m₁, stopServiceCmd os m .root name (.restart .automatic) = .ok (result, m₁)
      ∧ ((m' = m₁ ∧ (result = .ok () ∨ m₁.get? name = none))
        ∨ ∃ s line e, result = .error e ∧ m₁.get? name = some s
          ∧ m' = m₁.put name (pushLine s line) []) := by
  obtain ⟨⟨result, m₁⟩, hstop, h⟩ := bind_eq_ok.mp h
  refine ⟨result, m₁, hstop, ?_⟩
  cases result with
  | ok u => cases h; exact Or.inl ⟨rfl, Or.inl rfl⟩
  | error e =>
      dsimp only at h
      cases hget : getService m₁ .root name with
      | ok s =>
          rw [hget] at h
          cases h
          exact Or.inr ⟨s, _, e, rfl, (getService_iff.mp hget).1, rfl⟩
      | error e' =>
          rw [hget] at h
          cases h
          refine Or.inl ⟨rfl, Or.inr ?_⟩
          by_contra hsome
          obtain ⟨s, hs⟩ := Option.ne_none_iff_exists'.mp hsome
          rw [getService_iff.mpr ⟨hs, Service.checkCredentials_iff.mpr (Or.inl rfl)⟩] at hget
          exact nomatch hget

theorem act_log {line : String} (hget : m.get? name = some s) :
    Lifecycle m (.act name .log) (m.put name (pushLine s line) []) :=
  act_put hget (.log rfl)

/-- The lifecycle steps an event can cause. -/
inductive Caused (os : Os) : Event → Label → Prop where
  | command {cmd : Command} {credentials : Credentials} {name : String} {action : Action} :
      target cmd = some name → serves cmd action = true →
      Caused os (.command cmd credentials) (.act name action)
  | restart {name : String} :
      Caused os (.probeFailed name) (.act name (.terminate (.restart .automatic)))
  | log {name : String} : Caused os (.probeFailed name) (.act name .log)
  | reaped {name : String} {reap : Reap} : reap ∈ os.reaped →
      Caused os (.signal SIGCHLD) (.act name (.reap reap.pid))
  | foreign {reap : Reap} : reap ∈ os.reaped → Caused os (.signal SIGCHLD) (.foreign reap.pid)
  | shutdown {signo : Int} : signo = SIGTERM ∨ signo = SIGINT → Caused os (.signal signo) .shutdown
  | stop {signo : Int} {name : String} : signo = SIGTERM ∨ signo = SIGINT →
      Caused os (.signal signo) (.act name (.terminate .stop))

/-- **The refinement**: whatever the answers of the system, an event the main
    loop handles is a run of lifecycle steps. -/
theorem handleEvent_ok {event : Event} {reply : Reply}
    (h : handleEvent os m event = .ok (reply, m')) :
    ∃ labels, Run Lifecycle m labels m' ∧ ∀ label ∈ labels, Caused os event label := by
  cases event with
  | signal signo =>
      obtain ⟨m₁, hsignal, h⟩ := bind_eq_ok.mp h
      cases h
      rcases handleSignal_ok hsignal with ⟨rfl, hreap⟩ | ⟨hterm, hshut⟩ | ⟨-, -, rfl⟩
      · obtain ⟨labels, hrun, hlabels⟩ := reapAll_ok _ hreap
        refine ⟨labels, hrun, fun label hmem => ?_⟩
        obtain ⟨reap, hreap, rfl | ⟨name, rfl⟩⟩ := hlabels label hmem
        · exact .foreign hreap
        · exact .reaped hreap
      · rcases beginShutdown_ok hshut with ⟨-, rfl⟩ | ⟨-, hrun⟩
        · exact ⟨[], .nil _, nofun⟩
        · refine ⟨_, hrun, fun label hmem => ?_⟩
          rcases List.mem_append.mp hmem with hmem | hmem
          · obtain ⟨name, -, rfl⟩ := List.mem_map.mp hmem
            exact .stop hterm
          · exact List.mem_singleton.mp hmem ▸ .shutdown hterm
      · exact ⟨[], .nil _, nofun⟩
  | command cmd credentials =>
      obtain ⟨⟨result, m₁⟩, hcmd, h⟩ := bind_eq_ok.mp h
      cases h
      rcases handleApiCommand_ok hcmd with rfl | ⟨name, actions, htarget, -, hrun, hserves⟩
      · exact ⟨[], .nil _, nofun⟩
      · refine ⟨_, hrun, fun label hmem => ?_⟩
        obtain ⟨action, haction, rfl⟩ := List.mem_map.mp hmem
        exact .command htarget (hserves action haction)
  | getPty name credentials =>
      obtain ⟨_, _, h⟩ := bind_eq_ok.mp h
      cases h
      exact ⟨[], .nil _, nofun⟩
  | waitService name credentials => cases h; exact ⟨[], .nil _, nofun⟩
  | probeFailed name =>
      obtain ⟨m₂, hprobe, h⟩ := bind_eq_ok.mp h
      cases h
      obtain ⟨result, m₁, hstop, hlog⟩ := handleProbeFailed_ok hprobe
      -- a refused request leaves `m₁ = m`, an accepted one is a first step
      have hfirst : ∃ labels, Run Lifecycle m labels m₁
          ∧ ∀ label ∈ labels, Caused os (.probeFailed name) label := by
        rcases stopServiceCmd_ok hstop with ⟨rfl, -⟩ | ⟨-, hstep, -⟩
        · exact ⟨[], .nil _, nofun⟩
        · exact ⟨_, .single hstep, fun _ hmem => List.mem_singleton.mp hmem ▸ .restart⟩
      rcases hlog with ⟨rfl, -⟩ | ⟨s, line, e, -, hget, rfl⟩
      · exact hfirst
      · obtain ⟨labels, hrun, hlabels⟩ := hfirst
        refine ⟨labels ++ [.act name .log], hrun.snoc (act_log hget), fun label hmem => ?_⟩
        rcases List.mem_append.mp hmem with hmem | hmem
        · exact hlabels label hmem
        · exact List.mem_singleton.mp hmem ▸ .log

/-- Every step between two states of the main loop is a run of lifecycle steps. -/
theorem step_ok {move : Move} (h : Step m move m') : ∃ labels, Run Lifecycle m labels m' := by
  cases h with
  | handled hevent _ =>
      obtain ⟨labels, hrun, -⟩ := handleEvent_ok hevent
      exact ⟨labels, hrun⟩
  | logged hget => exact ⟨_, .single (act_log hget)⟩

end Events

/-! ## Invariants of the reachable states -/

/-- A step only adds to the trace. -/
theorem lifecycle_trace {m m' : Machine} {label : Label} (h : Lifecycle m label m') :
    m.trace <+: m'.trace := by
  cases h with
  | act _ => rw [write_trace]; exact List.prefix_append _ _
  | foreign _ => exact List.prefix_append _ _
  | shutdown _ => exact List.prefix_refl _

/-- A run only adds to the trace. -/
theorem run_trace {m m' : Machine} {labels : List Label} (h : Run Lifecycle m labels m') :
    m.trace <+: m'.trace :=
  h.relates (R := fun m m' => m.trace <+: m'.trace) (fun _ => List.prefix_refl _)
    List.IsPrefix.trans lifecycle_trace

/-- The effects of a run are those of its first step and those of the others. -/
theorem effects_split {m m₁ m' : Machine} {label : Label} {labels : List Label} {out : List Effect}
    (hstep : Lifecycle m label m₁) (hrest : Run Lifecycle m₁ labels m')
    (hout : m'.trace = m.trace ++ out) :
    ∃ first rest, out = first ++ rest ∧ m₁.trace = m.trace ++ first
      ∧ m'.trace = m₁.trace ++ rest := by
  obtain ⟨first, hfirst⟩ := lifecycle_trace hstep
  obtain ⟨rest, hrest⟩ := run_trace hrest
  refine ⟨first, rest, List.append_cancel_left (hout.symm.trans ?_), hfirst.symm, hrest.symm⟩
  rw [← hrest, ← hfirst, List.append_assoc]

/-- What was fresh in a trace was so before. -/
theorem spawnsFresh_before {trace trace' : List Effect} (hpre : trace <+: trace')
    (h : SpawnsFresh trace') : SpawnsFresh trace := by
  obtain ⟨suffix, rfl⟩ := hpre
  intro pre e post heq
  refine h pre e (post ++ suffix) ?_
  rw [heq, List.append_assoc, List.cons_append]

/-- An invariant of lifecycle steps with fresh spawns is kept by their runs. -/
theorem run_invariant {I : Machine → Prop}
    (hstep : ∀ {m label m'}, SpawnsFresh m'.trace → I m → Lifecycle m label m' → I m')
    {m m' : Machine} {labels : List Label} (hrun : Run Lifecycle m labels m')
    (hfresh : SpawnsFresh m'.trace) (hI : I m) : I m' := by
  induction hrun with
  | nil _ => exact hI
  | cons hfirst hrest ih =>
      -- freshness at the first step comes from the trace of the last state
      exact ih hfresh (hstep (spawnsFresh_before (run_trace hrest) hfresh) hI hfirst)

/-- **The invariant rule of the manager**: what holds of an empty manager and is
    kept by each lifecycle step with fresh spawns holds between any two events. -/
theorem reachable_invariant {I : Machine → Prop}
    (hnew : ∀ files lines, I (newMachine files lines))
    (hstep : ∀ {m label m'}, SpawnsFresh m'.trace → I m → Lifecycle m label m' → I m')
    {m : Machine} (h : Reachable m) : SpawnsFresh m.trace ∧ I m := by
  obtain ⟨files, lines, moves, hrun⟩ := h
  refine hrun.invariant (I := fun m => SpawnsFresh m.trace ∧ I m) ?_ ⟨?_, hnew files lines⟩
  · rintro m move m' ⟨hfresh, hI⟩ hmove
    have hfresh' : SpawnsFresh m'.trace := by
      cases hmove with
      | handled _ hfresh' => exact hfresh'
      | logged _ =>
          rw [put_quiet_trace]
          exact hfresh
    obtain ⟨labels, hrun⟩ := step_ok hmove
    exact ⟨hfresh', run_invariant hstep hrun hfresh' hI⟩
  · intro pre e post heq
    exact absurd heq.symm (by simp [newMachine])

/-- A state between two lifecycle steps of a manager. -/
def Reached (m : Machine) : Prop :=
  ∃ files lines labels, Run Lifecycle (newMachine files lines) labels m

/-- A lifecycle step leads on to a reached state. -/
theorem reached_snoc {m m' : Machine} {label : Label} (h : Reached m)
    (hstep : Lifecycle m label m') : Reached m' := by
  obtain ⟨files, lines, labels, hrun⟩ := h
  exact ⟨files, lines, _, hrun.snoc hstep⟩

/-- So does a run. -/
theorem reached_run {m m' : Machine} {labels : List Label} (h : Reached m)
    (hrun : Run Lifecycle m labels m') : Reached m' := by
  obtain ⟨files, lines, before, hbefore⟩ := h
  exact ⟨files, lines, _, hbefore.append hrun⟩

/-- **What the code reaches, the lifecycle reaches**. -/
theorem reachable_reached {m : Machine} (h : Reachable m) : Reached m := by
  obtain ⟨files, lines, moves, hrun⟩ := h
  refine hrun.invariant (I := Reached) (fun hI hmove => ?_) ⟨files, lines, [], .nil _⟩
  obtain ⟨labels, hlabels⟩ := step_ok hmove
  exact reached_run hI hlabels

/-- The executable loop makes a run, provided the spawns of its trace are fresh. -/
theorem run_of_runLoop {m m' : Machine} {events : List (Os × Event)}
    (h : runLoop m events = .ok m') (hfresh : SpawnsFresh m'.trace) :
    m.trace <+: m'.trace ∧ ∃ moves, Run Step m moves m' := by
  induction events generalizing m with
  | nil => cases h; exact ⟨List.prefix_refl _, [], .nil _⟩
  | cons e events ih =>
      rw [runLoop] at h
      rw [List.foldlM_cons] at h
      obtain ⟨m₁, hfirst, hrest⟩ := bind_eq_ok.mp h
      obtain ⟨hpre, moves, hrun⟩ := ih hrest
      cases hevent : handleEvent e.1 m e.2 with
      | error p => rw [hevent] at hfirst; exact nomatch hfirst
      | ok outcome =>
          rw [hevent] at hfirst
          obtain rfl : outcome.2 = m₁ := Except.ok.inj hfirst
          obtain ⟨labels, hlabels, -⟩ := handleEvent_ok hevent
          exact ⟨(run_trace hlabels).trans hpre, _,
            .cons (.handled hevent (spawnsFresh_before hpre hfresh)) hrun⟩

/-- The executable loop reaches what runs reach. -/
theorem reachable_of_runLoop {m : Machine} {files : List String} {lines : NonZeroUsize}
    {events : List (Os × Event)} (h : runLoop (newMachine files lines) events = .ok m)
    (hfresh : SpawnsFresh m.trace) : Reachable m := by
  obtain ⟨-, moves, hrun⟩ := run_of_runLoop h hfresh
  exact ⟨files, lines, moves, hrun⟩

end BeamRefinement
