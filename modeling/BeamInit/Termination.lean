import BeamInit.Consistency

/-! # Termination — what a list of requests adds up to

    Requests to terminate a service arrive in any number and order while its
    process is dying.  The pairwise `merge` folds them to one outcome, described
    here on the whole list; the status carries exactly that outcome, and the
    reaping of the process carries it out. -/

namespace BeamTermination

open BeamApi BeamOs BeamLogs BeamService BeamManager BeamCommands BeamMainLoop BeamLifecycle
open BeamOperations BeamRefinement BeamConsistency Runs

/-! ## The outcome of a list of requests -/

/-- The last request that is not an automatic restart, else an automatic restart. -/
def lastExplicit (requests : List AfterStop) : AfterStop :=
  (requests.filter (· ≠ .restart .automatic)).getLast?.getD (.restart .automatic)

/-- What the requests ask for together: pruning once requested stays; otherwise
    the last explicit request wins. -/
def intended (requests : List AfterStop) : AfterStop :=
  if .prune ∈ requests then .prune else lastExplicit requests

theorem lastExplicit_ne_prune {requests : List AfterStop} (h : .prune ∉ requests) :
    lastExplicit requests ≠ .prune := by
  rw [lastExplicit]
  cases hlast : (requests.filter (· ≠ .restart .automatic)).getLast? with
  | none => exact AfterStop.noConfusion
  | some request =>
      rintro rfl
      exact h (List.mem_of_mem_filter (List.mem_of_getLast? hlast))

theorem lastExplicit_snoc (requests : List AfterStop) (request : AfterStop) :
    lastExplicit (requests ++ [request])
      = if request = .restart .automatic then lastExplicit requests else request := by
  unfold lastExplicit
  rw [List.filter_append]
  by_cases h : request = .restart .automatic
  · rw [if_pos h, h, List.filter_singleton]
    simp
  · rw [if_neg h, List.filter_singleton]
    simp [h]

/-- **The merge of the code adds one request to the intended outcome.** -/
theorem intended_snoc (requests : List AfterStop) (request : AfterStop) :
    intended (requests ++ [request]) = (intended requests).merge request := by
  unfold intended
  by_cases hprune : .prune ∈ requests
  · -- pruning is never taken back
    rw [if_pos (List.mem_append_left _ hprune), if_pos hprune]
    rfl
  · have hlast := lastExplicit_ne_prune hprune
    rw [if_neg hprune]
    by_cases hreq : request = .prune
    · subst hreq
      rw [if_pos (List.mem_append_right _ (List.mem_singleton_self _))]
      cases lastExplicit requests <;> rfl
    · have hnot : .prune ∉ requests ++ [request] := by simp [hprune, Ne.symm hreq]
      rw [if_neg hnot, lastExplicit_snoc]
      cases hcur : lastExplicit requests with
      | prune => exact absurd hcur hlast
      | stop | restart _ =>
          rcases request with _ | _ | (_ | _) <;> rfl

theorem intended_single (request : AfterStop) : intended [request] = request := by
  rcases request with _ | _ | (_ | _) <;> rfl

/-! ## Requests along a run -/

/-- Would an automatic restart of `name` be accepted? -/
def restartAccepted (os : Os) (m : Machine) (name : String) : Bool :=
  match stopServiceCmd os m .root name (.restart .automatic) with
  | .ok (.ok (), _) => true
  | _ => false

/-- The requests to terminate `name` that are accepted while `event` is handled:
    the client's stop, prune and restart, the automatic restart, the shutdown. -/
def accepted (name : String) (m : Machine) : Move → List AfterStop
  | .handled _ (.command (.restartService other) _) (.response (.ok _)) =>
      if other = name then [.restart .user] else []
  | .handled _ (.command (.stopService other prune) _) (.response (.ok _)) =>
      if other = name then [if prune then .prune else .stop] else []
  | .handled os (.probeFailed other) _ =>
      if other = name ∧ restartAccepted os m other then [.restart .automatic] else []
  | .handled _ (.signal signo) _ =>
      if (signo = SIGTERM ∨ signo = SIGINT) ∧ m.mgr.shutdown = false then [.stop] else []
  | _ => []

/-- Does handling this event reap the child `pid`? -/
def Reaps (pid : Pid) : Move → Prop
  | .handled os (.signal signo) _ => signo = SIGCHLD ∧ ∃ reap ∈ os.reaped, reap.pid = pid
  | _ => False

/-- The requests a lifecycle step makes. -/
def labelRequests (name : String) : Label → List AfterStop
  | .act other (.terminate request) => if other = name then [request] else []
  | _ => []

/-- The status of a service that held `process` and was asked `requests` since. -/
def HeldStatus (process : ServiceProcess) (requests : List AfterStop) (status : ServiceStatus) :
    Prop :=
  (requests = [] ∧ ∃ pty, status = .running process pty ∨ status = .frozen process pty)
    ∨ (requests ≠ [] ∧ ∃ kill, status = .stopping process (intended requests) kill)

def Held (name : String) (process : ServiceProcess) (requests : List AfterStop) (m : Machine) :
    Prop :=
  ∃ s, m.get? name = some s ∧ HeldStatus process requests s.state.status

theorem HeldStatus.live {process : ServiceProcess} {requests : List AfterStop}
    {status : ServiceStatus} (h : HeldStatus process requests status) :
    status.process? = some process := by
  rcases h with ⟨-, pty, rfl | rfl⟩ | ⟨-, kill, rfl⟩ <;> rfl

section HeldStatus

variable {process p : ServiceProcess} {requests : List AfterStop} {pty : Option Pty}
variable {afterStop : AfterStop} {kill : Option PendingKill}

theorem HeldStatus.of_running (h : HeldStatus process requests (.running p pty)) :
    requests = [] ∧ p = process := by
  rcases h with ⟨hnil, pty', heq | heq⟩ | ⟨-, kill, heq⟩
  · cases heq; exact ⟨hnil, rfl⟩
  · exact nomatch heq
  · exact nomatch heq

theorem HeldStatus.of_frozen (h : HeldStatus process requests (.frozen p pty)) :
    requests = [] ∧ p = process := by
  rcases h with ⟨hnil, pty', heq | heq⟩ | ⟨-, kill, heq⟩
  · exact nomatch heq
  · cases heq; exact ⟨hnil, rfl⟩
  · exact nomatch heq

theorem HeldStatus.of_stopping (h : HeldStatus process requests (.stopping p afterStop kill)) :
    requests ≠ [] ∧ p = process ∧ afterStop = intended requests := by
  rcases h with ⟨-, pty', heq | heq⟩ | ⟨hne, kill, heq⟩
  · exact nomatch heq
  · exact nomatch heq
  · cases heq; exact ⟨hne, rfl, rfl⟩

/-- The first request, to a running or frozen service. -/
theorem heldStatus_first (request : AfterStop) (kill : Option PendingKill) :
    HeldStatus process [request] (.stopping process request kill) :=
  Or.inr ⟨List.cons_ne_nil _ _, kill, by rw [intended_single]⟩

/-- A further request, merged into the pending one. -/
theorem heldStatus_merge (request : AfterStop) (kill : Option PendingKill) :
    HeldStatus process (requests ++ [request])
      (.stopping process ((intended requests).merge request) kill) :=
  Or.inr ⟨List.append_ne_nil_of_right_ne_nil _ (List.cons_ne_nil _ _), kill,
    by rw [intended_snoc]⟩

end HeldStatus

/-- **One step keeps the account of the requests**, unless it reaps the process. -/
theorem transition_held {shutdown : Bool} {name : String} {action : Action} {s : Service}
    {entry : Option Service} {out : List Effect} {process : ServiceProcess}
    {requests : List AfterStop} (h : Transition shutdown name action (some s) out entry)
    (hheld : HeldStatus process requests s.state.status)
    (hreap : action ≠ .reap process.mainPid) :
    ∃ s', entry = some s'
      ∧ HeldStatus process (requests ++ labelRequests name (.act name action)) s'.state.status := by
  have hlive := hheld.live
  have hterm : ∀ request, labelRequests name (.act name (.terminate request)) = [request] :=
    fun request => if_pos rfl
  cases h with
  | start _ hdead _ | stopDead hdead _ | pruneDead hdead | restartDead _ hdead _ =>
      rw [process?_of_isDead hdead] at hlive
      exact nomatch hlive
  | keep hu =>
      refine ⟨_, rfl, ?_⟩
      rw [hu.status_eq]
      exact (List.append_nil requests).symm ▸ hheld
  | signal _ _ => exact ⟨s, rfl, (List.append_nil requests).symm ▸ hheld⟩
  | @log _ _ line hs => exact ⟨pushLine s line, by rw [hs], (List.append_nil requests).symm ▸ hheld⟩
  | freeze hst hu =>
      rw [hst] at hheld
      obtain ⟨rfl, rfl⟩ := hheld.of_running
      exact ⟨_, rfl, hu.status_eq ▸ Or.inl ⟨rfl, _, Or.inr rfl⟩⟩
  | thaw hst hu =>
      rw [hst] at hheld
      obtain ⟨rfl, rfl⟩ := hheld.of_frozen
      exact ⟨_, rfl, hu.status_eq ▸ Or.inl ⟨rfl, _, Or.inl rfl⟩⟩
  | merge _ hst hu =>
      rw [hst] at hheld
      obtain ⟨-, rfl, rfl⟩ := hheld.of_stopping
      exact ⟨_, rfl, hterm _ ▸ hu.status_eq ▸ heldStatus_merge _ _⟩
  | terminateFrozen _ hst hu =>
      rw [hst] at hheld
      obtain ⟨rfl, rfl⟩ := hheld.of_frozen
      exact ⟨_, rfl, hterm _ ▸ hu.status_eq ▸ heldStatus_first _ _⟩
  | terminateRunning _ hst _ hu =>
      rw [hst] at hheld
      obtain ⟨rfl, rfl⟩ := hheld.of_running
      exact ⟨_, rfl, hterm _ ▸ hu.status_eq ▸ heldStatus_first _ _⟩
  | exited hst _ =>
      -- the reaped process is the one held
      rcases hst with hst | hst <;> rw [hst] at hlive <;> cases hlive <;> exact absurd rfl hreap
  | stopped hst _ | pruned hst | restarted _ hst _ | stranded _ hst _ _ =>
      rw [hst] at hlive
      cases hlive
      exact absurd rfl hreap

/-- The account along lifecycle steps that do not reap the process of `name`. -/
theorem held_run {m m' : Machine} {labels : List Label} {name : String} {process : ServiceProcess}
    {requests : List AfterStop} (hrun : Run Lifecycle m labels m')
    (hheld : Held name process requests m)
    (hreap : .act name (.reap process.mainPid) ∉ labels) :
    Held name process (requests ++ labels.flatMap (labelRequests name)) m' := by
  induction hrun generalizing requests with
  | nil _ => exact (List.append_nil requests).symm ▸ hheld
  | @cons m m₁ m' label labels hstep _ ih =>
      rw [List.mem_cons, not_or] at hreap
      rw [List.flatMap_cons, ← List.append_assoc]
      refine ih ?_ hreap.2
      obtain ⟨s, hget, hstatus⟩ := hheld
      cases hstep with
      | foreign _ => exact ⟨s, hget, (List.append_nil requests).symm ▸ hstatus⟩
      | shutdown _ _ => exact ⟨s, hget, (List.append_nil requests).symm ▸ hstatus⟩
      | @act other action out entry ht =>
          by_cases hname : other = name
          · subst hname
            rw [hget] at ht
            obtain ⟨s', rfl, hstatus'⟩ :=
              transition_held ht hstatus (fun heq => hreap.1 (by rw [heq]))
            exact ⟨s', get?_put_self, hstatus'⟩
          · have hnone : labelRequests name (.act other action) = [] := by
              cases action <;> first | rfl | exact if_neg hname
            refine ⟨s, ?_, ?_⟩
            · rw [get?_write, if_neg hname]; exact hget
            · rw [hnone, List.append_nil]; exact hstatus

/-! ## The events -/

theorem not_dead_of_held {name : String} {process : ServiceProcess} {requests : List AfterStop}
    {m : Machine} (h : Held name process requests m) {s : Service} (hget : m.get? name = some s) :
    isDead s.state.status = false := by
  obtain ⟨s', hget', hstatus⟩ := h
  cases hget.symm.trans hget'
  rw [← Bool.not_eq_true]
  intro hdead
  have := hstatus.live
  rw [process?_of_isDead hdead] at this
  exact nomatch this

/-- A request to terminate `other`: the steps make the request exactly when the
    result is `Ok`, as far as the live service `name` is concerned. -/
theorem stopServiceCmd_requests {os : Os} {m m' : Machine} {credentials : Credentials}
    {name other : String} {process : ServiceProcess} {requests : List AfterStop}
    {request : AfterStop} {result : Except ServiceError Unit} (hheld : Held name process requests m)
    (h : stopServiceCmd os m credentials other request = .ok (result, m')) :
    ∃ labels, Run Lifecycle m labels m' ∧ (∀ label ∈ labels, label = .act other (.terminate request))
      ∧ labels.flatMap (labelRequests name)
        = if other = name ∧ result = .ok () then [request] else [] := by
  rcases stopServiceCmd_ok h with ⟨rfl, e, rfl⟩ | ⟨-, hstep, herror⟩
  · exact ⟨[], .nil _, nofun, by rw [if_neg (fun hor => nomatch hor.2)]; rfl⟩
  · refine ⟨[_], .single hstep, fun _ hmem => List.mem_singleton.mp hmem, ?_⟩
    have hsingle : [Label.act other (.terminate request)].flatMap (labelRequests name)
        = if other = name then [request] else [] := by simp [labelRequests]
    rw [hsingle]
    by_cases hname : other = name
    · -- a live service is terminated without an error
      have hok : result = .ok () := by
        cases result with
        | ok u => rfl
        | error e =>
            obtain ⟨s, hget, hdead⟩ := herror ⟨e, rfl⟩
            rw [not_dead_of_held (hname ▸ hheld) hget] at hdead
            exact nomatch hdead
      rw [if_pos hname, if_pos ⟨hname, hok⟩]
    · rw [if_neg hname, if_neg (fun hor => hname hor.1)]

theorem restartAccepted_iff {os : Os} {m m' : Machine} {name : String}
    {result : Except ServiceError Unit}
    (h : stopServiceCmd os m .root name (.restart .automatic) = .ok (result, m')) :
    restartAccepted os m name = true ↔ result = .ok () := by
  rw [restartAccepted]
  rw [h]
  cases result with
  | ok u => exact ⟨fun _ => rfl, fun _ => rfl⟩
  | error e => exact ⟨nofun, nofun⟩

/-- Only the restart and stop commands terminate, and no command reaps. -/
theorem serves_requests {cmd : Command} {action : Action} (h : serves cmd action = true)
    (hrestart : ∀ name, cmd ≠ .restartService name)
    (hstop : ∀ name prune, cmd ≠ .stopService name prune) (name other : String) :
    labelRequests name (.act other action) = [] := by
  cases cmd with
  | restartService name => exact absurd rfl (hrestart name)
  | stopService name prune => exact absurd rfl (hstop name prune)
  | _ => cases action <;> first | rfl | exact absurd h (by simp [serves])

theorem serves_not_reap {cmd : Command} {pid : Pid} : serves cmd (.reap pid) = false := by
  cases cmd <;> simp [serves]

/-- Stopping each key once is one stop of a name among them. -/
theorem stops_requests {names : List String} {name : String} (hnodup : names.Nodup)
    (hmem : name ∈ names) :
    (names.map (fun name => Label.act name (.terminate .stop))).flatMap (labelRequests name)
      = [.stop] := by
  induction names with
  | nil => exact absurd hmem List.not_mem_nil
  | cons first names ih =>
      obtain ⟨hfirst, hnodup⟩ := List.nodup_cons.mp hnodup
      rw [List.map_cons, List.flatMap_cons]
      by_cases heq : first = name
      · subst heq
        have hrest : (names.map (fun name => Label.act name (.terminate .stop))).flatMap
            (labelRequests first) = [] := by
          refine List.flatMap_eq_nil_iff.mpr fun label hlabel => ?_
          obtain ⟨other, hother, rfl⟩ := List.mem_map.mp hlabel
          exact if_neg fun hsame : other = first => hfirst (hsame ▸ hother)
        rw [hrest, List.append_nil]
        exact if_pos rfl
      · rw [ih hnodup ((List.mem_cons.mp hmem).resolve_left (Ne.symm heq))]
        show (if first = name then [AfterStop.stop] else []) ++ [.stop] = [.stop]
        rw [if_neg heq, List.nil_append]

section Events

variable {os : Os} {m m' : Machine} {name : String} {process : ServiceProcess}
variable {requests : List AfterStop}

/-- What `step_requests` says of the steps that an event is made of. -/
def Accounted (name : String) (m : Machine) (move : Move) (m' : Machine) : Prop :=
  ∃ labels, Run Lifecycle m labels m'
    ∧ labels.flatMap (labelRequests name) = accepted name m move
    ∧ ∀ pid other, .act other (.reap pid) ∈ labels → Reaps pid move

theorem accounted_signal {signo : Int} {reply : Reply} (hheld : Held name process requests m)
    (h : handleSignal os m signo = .ok m') :
    Accounted name m (.handled os (.signal signo) reply) m' := by
  rcases handleSignal_ok h with ⟨rfl, hreap⟩ | ⟨hterm, hbegin⟩ | ⟨-, hterm, rfl⟩
  · obtain ⟨labels, hrun, hlabels⟩ := reapAll_ok _ hreap
    refine ⟨labels, hrun, ?_, fun pid other hmem => ?_⟩
    · refine List.flatMap_eq_nil_iff.mpr fun label hmem => ?_
      obtain ⟨reap, -, rfl | ⟨other, rfl⟩⟩ := hlabels label hmem <;> rfl
    · obtain ⟨reap, hreap, heq | ⟨other', heq⟩⟩ := hlabels _ hmem
      · exact nomatch heq
      · cases heq
        exact ⟨rfl, reap, hreap, rfl⟩
  · rcases beginShutdown_ok hbegin with ⟨hshut, rfl⟩ | ⟨hshut, hrun⟩
    · refine ⟨[], .nil _, ?_, nofun⟩
      exact (if_neg fun hor => absurd (hshut.symm.trans hor.2) Bool.noConfusion).symm
    · obtain ⟨s, hget, -⟩ := hheld
      have hkey : name ∈ m.mgr.services.keys := mem_keys_iff.mpr (by rw [hget]; rfl)
      refine ⟨_, hrun, ?_, fun pid other hmem => ?_⟩
      · rw [List.flatMap_append, stops_requests Std.ExtTreeMap.nodup_keys hkey]
        exact (if_pos ⟨hterm, hshut⟩).symm
      · rcases List.mem_append.mp hmem with hmem | hmem
        · obtain ⟨_, -, heq⟩ := List.mem_map.mp hmem
          exact nomatch heq
        · exact nomatch List.mem_singleton.mp hmem
  · exact ⟨[], .nil _, (if_neg fun hor => hterm hor.1).symm, nofun⟩

theorem accounted_probe {other : String} {reply : Reply} (hheld : Held name process requests m)
    (h : handleProbeFailed os m other = .ok m') :
    Accounted name m (.handled os (.probeFailed other) reply) m' := by
  obtain ⟨result, m₁, hstop, hlog⟩ := handleProbeFailed_ok h
  obtain ⟨labels, hrun, hlabels, hrequests⟩ := stopServiceCmd_requests hheld hstop
  have hreap : ∀ pid n, .act n (.reap pid) ∉ labels :=
    fun pid n hmem => nomatch hlabels _ hmem
  have haccept : accepted name m (.handled os (.probeFailed other) reply)
      = if other = name ∧ result = .ok () then [.restart .automatic] else [] := by
    show (if other = name ∧ restartAccepted os m other = true then _ else _) = _
    simp only [restartAccepted_iff hstop]
  rcases hlog with ⟨rfl, -⟩ | ⟨s, line, e, -, hget, rfl⟩
  · exact ⟨labels, hrun, hrequests.trans haccept.symm, fun pid n hmem => absurd hmem (hreap pid n)⟩
  · refine ⟨_, hrun.snoc (act_log hget), ?_, fun pid n hmem => ?_⟩
    · rw [List.flatMap_append, hrequests, haccept]
      exact List.append_nil _
    · rcases List.mem_append.mp hmem with hmem | hmem
      · exact absurd hmem (hreap pid n)
      · exact nomatch List.mem_singleton.mp hmem

/-- A restart or stop command, answered with the result of `stop_service_cmd`. -/
theorem accounted_stop {other : String} {credentials : Credentials} {request : AfterStop}
    {result : Except ServiceError Unit} {move : Move} (hheld : Held name process requests m)
    (h : stopServiceCmd os m credentials other request = .ok (result, m'))
    (haccept : accepted name m move
      = if other = name ∧ result = .ok () then [request] else []) :
    Accounted name m move m' := by
  obtain ⟨labels, hrun, hlabels, hrequests⟩ := stopServiceCmd_requests hheld h
  exact ⟨labels, hrun, hrequests.trans haccept.symm, fun pid n hmem => nomatch hlabels _ hmem⟩

/-- Any other command: its actions request nothing. -/
theorem accounted_served {cmd : Command} {credentials : Credentials} {move : Move}
    (h : Served cmd credentials m m') (hrestart : ∀ name, cmd ≠ .restartService name)
    (hstop : ∀ name prune, cmd ≠ .stopService name prune) (haccept : accepted name m move = []) :
    Accounted name m move m' := by
  rcases h with rfl | ⟨other, actions, -, -, hrun, hserves⟩
  · exact ⟨[], .nil _, haccept.symm, nofun⟩
  · refine ⟨_, hrun, ?_, fun pid n hmem => ?_⟩
    · rw [haccept]
      refine List.flatMap_eq_nil_iff.mpr fun label hmem => ?_
      obtain ⟨action, haction, rfl⟩ := List.mem_map.mp hmem
      exact serves_requests (hserves action haction) hrestart hstop name other
    · obtain ⟨action, haction, heq⟩ := List.mem_map.mp hmem
      cases heq
      exact absurd (hserves _ haction) (by rw [serves_not_reap]; exact Bool.noConfusion)

/-- **Every event** makes the requests it accepts, and reaps only what it reaps. -/
theorem step_requests {move : Move} (hheld : Held name process requests m)
    (h : Step m move m') : Accounted name m move m' := by
  cases h with
  | logged hget =>
      exact ⟨_, .single (act_log hget), rfl, fun _ _ hmem => nomatch List.mem_singleton.mp hmem⟩
  | @handled _ os event reply hevent hfresh =>
      cases event with
      | signal signo =>
          obtain ⟨m₁, hsignal, heq⟩ := bind_eq_ok.mp hevent
          cases heq
          exact accounted_signal hheld hsignal
      | probeFailed other =>
          obtain ⟨m₁, hprobe, heq⟩ := bind_eq_ok.mp hevent
          cases heq
          exact accounted_probe hheld hprobe
      | getPty other credentials =>
          obtain ⟨_, _, heq⟩ := bind_eq_ok.mp hevent
          cases heq
          exact ⟨[], .nil _, rfl, nofun⟩
      | waitService other credentials =>
          cases hevent
          exact ⟨[], .nil _, rfl, nofun⟩
      | command cmd credentials =>
          obtain ⟨⟨answer, m₁⟩, hcmd, heq⟩ := bind_eq_ok.mp hevent
          cases heq
          cases cmd with
          | restartService other =>
              obtain ⟨result, hstop, rfl⟩ := answerDone_ok hcmd
              refine accounted_stop hheld hstop ?_
              cases result <;> simp [accepted, Except.map]
          | stopService other prune =>
              obtain ⟨result, hstop, rfl⟩ := answerDone_ok hcmd
              refine accounted_stop hheld hstop ?_
              cases result <;> simp [accepted, Except.map]
          | _ => exact accounted_served (handleApiCommand_ok hcmd) nofun nofun rfl

end Events

/-! ## The end of the process -/

def isStarting : Effect → Bool
  | .starting .. => true
  | _ => false

theorem filter_lacks {p : Effect → Bool} {out : List Effect} (h : Lacks p out) :
    out.filter p = [] :=
  List.filter_eq_nil_iff.mpr fun e hmem => by rw [h e hmem]; exact Bool.noConfusion

theorem lacks_starting_sink {out : List Effect} (h : ∀ e ∈ out, isSink e = true) :
    Lacks isStarting out := by
  intro e hmem
  have := h e hmem
  cases e with
  | starting _ _ => exact nomatch this
  | _ => rfl

/-- `start_service` announces itself once. -/
theorem start_once {name : String} {reason : StartReason} {s s' : Service}
    {probe : Option AbortHandle} {out : List Effect} (h : Start name reason s probe out s') :
    out.filter isStarting = [.starting name reason]
      ∧ ((∃ process pty, s'.state.status = .running process pty)
        ∨ ∃ err, s'.state.status = .error err) := by
  have hcons : ∀ {rest : List Effect}, Lacks isStarting rest →
      (Effect.starting name reason :: rest).filter isStarting = [.starting name reason] := by
    intro rest hrest
    rw [List.filter_cons_of_pos rfl, filter_lacks hrest]
  cases h with
  | running hu _ _ hsink =>
      exact ⟨hcons ((lacks_starting_sink hsink).append (.cons rfl (lacks_probe rfl))),
        Or.inl ⟨_, _, hu.status_eq⟩⟩
  | failed hu hsink =>
      exact ⟨hcons ((lacks_starting_sink hsink).append (.cons rfl .nil)),
        Or.inr ⟨_, hu.status_eq⟩⟩
  | noPty hu => exact ⟨rfl, Or.inr ⟨_, hu.status_eq⟩⟩

/-- What becomes of a service when its process is reaped, by the pending outcome:
    removed, stopped, or handed to `start_service` exactly once. -/
def Concluded (name : String) (m m' : Machine) : AfterStop → Prop
  | .prune => m'.get? name = none
  | .stop => ∃ s, m'.get? name = some s ∧ s.state.status = .stopped
  | .restart reason => ∃ s out, m'.get? name = some s
      ∧ ((∃ process pty, s.state.status = .running process pty) ∨ ∃ err, s.state.status = .error err)
      ∧ m'.trace = m.trace ++ out ∧ out.filter isStarting = [.starting name reason]

/-- The `waitpid` iteration that returns the process of a stopping service. -/
theorem reapChild_concludes {m m' : Machine} {name : String} {process : ServiceProcess}
    {requests : List AfterStop} {reap : Reap} (hm : Consistent m)
    (hheld : Held name process requests m) (hne : requests ≠ [])
    (hpid : reap.pid = process.mainPid) (h : reapChild reap m = .ok m') :
    Concluded name m m' (intended requests) := by
  obtain ⟨s, hget, hstatus⟩ := hheld
  have hholder : holder m name = some process :=
    Option.bind_eq_some_iff.mpr ⟨s, hget, hstatus.live⟩
  obtain ⟨kill, hst⟩ : ∃ kill, s.state.status = .stopping process (intended requests) kill :=
    hstatus.elim (fun hnil => absurd hnil.1 hne) (fun h => h.2)
  have hlacks : ∀ kill probe, Lacks isStarting (abortTask .timerAborted kill
      ++ abortTask .probeAborted probe) :=
    fun kill probe => (lacks_abort (fun _ => rfl) kill).append (lacks_abort (fun _ => rfl) probe)
  rcases reapChild_ok h with hforeign | ⟨other, hact⟩
  · cases hforeign with
    | foreign hnobody => exact absurd hpid.symm (hnobody name s process hget hstatus.live)
  · obtain ⟨out, entry, ht, rfl⟩ := hact.act_inv
    -- the reaped pid belongs to one service only
    have hother : other = name := by
      obtain ⟨p, hp, hpid'⟩ := transition_reap ht
      exact hm.accounts.unique hp hholder (hpid'.trans hpid)
    subst hother
    rw [hget] at ht
    obtain ⟨pid, status, start⟩ := reap
    dsimp only at ht
    generalize intended requests = afterStop at hst ⊢
    cases ht with
    | exited hst' _ => rcases hst' with hst' | hst' <;> exact nomatch hst.symm.trans hst'
    | stopped hst' hu =>
        cases hst.symm.trans hst'
        exact ⟨_, get?_put_self, hu.status_eq⟩
    | pruned hst' =>
        cases hst.symm.trans hst'
        exact (get?_remove m other other _).trans (if_pos rfl)
    | restarted _ hst' hstart =>
        cases hst.symm.trans hst'
        obtain ⟨honce, hend⟩ := start_once hstart
        refine ⟨_, _, get?_put_self, hend, rfl, ?_⟩
        rw [List.filter_append, honce, List.filter_cons_of_neg Bool.false_ne_true,
          filter_lacks (hlacks _ _), List.nil_append]
    | stranded hshut hst' _ _ =>
        -- after the shutdown no restart is pending
        have := hm.settled hshut other s hget
        rw [hst'] at this
        exact nomatch this

/-! ## Runs -/

/-- One event that does not reap `pid`, labelled with the requests it accepts for `name`. -/
def RequestStep (name : String) (pid : Pid) (m : Machine) (requests : List AfterStop)
    (m' : Machine) : Prop :=
  ∃ move, Step m move m' ∧ ¬ Reaps pid move ∧ requests = accepted name m move

theorem held_requestRun {m m' : Machine} {name : String} {process : ServiceProcess}
    {before : List AfterStop} {requests : List (List AfterStop)}
    (hrun : Run (RequestStep name process.mainPid) m requests m')
    (hheld : Held name process before m) :
    Held name process (before ++ requests.flatten) m' ∧ ∃ moves, Run Step m moves m' := by
  induction hrun generalizing before with
  | nil m => exact ⟨by rw [List.flatten_nil, List.append_nil]; exact hheld, [], .nil m⟩
  | cons hstep _ ih =>
      obtain ⟨move, hmove, hreap, rfl⟩ := hstep
      obtain ⟨labels, hlabels, hrequests, hreaps⟩ := step_requests hheld hmove
      have hnext := held_run hlabels hheld fun hmem => hreap (hreaps _ _ hmem)
      obtain ⟨hlast, moves, hmoves⟩ := ih (hrequests ▸ hnext)
      rw [List.flatten_cons, ← List.append_assoc]
      exact ⟨hlast, _, .cons hmove hmoves⟩

/-- **HEADLINE.** Whatever happens to a running or frozen service before its
    process is reaped, the accepted requests decide alone: it is Stopping on that
    process with the intended outcome, and the reaping carries this outcome out. -/
theorem requests_decide {m m' : Machine} {name : String} {s : Service} {process : ServiceProcess}
    {pty : Option Pty} {requests : List (List AfterStop)} (hm : Reachable m)
    (hget : m.get? name = some s)
    (hlive : s.state.status = .running process pty ∨ s.state.status = .frozen process pty)
    (hrun : Run (RequestStep name process.mainPid) m requests m') (hne : requests.flatten ≠ []) :
    (∃ s' kill, m'.get? name = some s'
        ∧ s'.state.status = .stopping process (intended requests.flatten) kill)
      ∧ ∀ os reply m'' pre reap post, Step m' (.handled os (.signal SIGCHLD) reply) m'' →
        os.reaped = pre ++ reap :: post → reap.pid = process.mainPid →
        (∀ earlier ∈ pre, earlier.pid ≠ process.mainPid) →
        ∃ m₁ m₂, pre.foldlM (fun m reap => reapChild reap m) m' = .ok m₁
          ∧ reapChild reap m₁ = .ok m₂
          ∧ post.foldlM (fun m reap => reapChild reap m) m₂ = .ok m''
          ∧ Concluded name m₁ m₂ (intended requests.flatten) := by
  have hheld : Held name process [] m := ⟨s, hget, Or.inl ⟨rfl, pty, hlive⟩⟩
  obtain ⟨hheld', moves, hmoves⟩ := held_requestRun hrun hheld
  rw [List.nil_append] at hheld'
  have hm' := reachable_run hm hmoves
  constructor
  · obtain ⟨s', hget', hstatus⟩ := hheld'
    obtain ⟨kill, hst⟩ := (hstatus.resolve_left fun hnil => hne hnil.1).2
    exact ⟨s', kill, hget', hst⟩
  · intro os reply m'' pre reap post hstep hreaped hpid hpre
    cases hstep with
    | handled hevent hfresh =>
        obtain ⟨m₃, hsignal, heq⟩ := bind_eq_ok.mp hevent
        cases heq
        have hfold : (pre ++ reap :: post).foldlM (fun m reap => reapChild reap m) m' = .ok m'' := by
          rw [← hreaped]
          rcases handleSignal_ok hsignal with ⟨-, hfold⟩ | ⟨hterm, -⟩ | ⟨hchld, -⟩
          · exact hfold
          · exact absurd hterm (by decide)
          · exact absurd rfl hchld
        rw [List.foldlM_append] at hfold
        obtain ⟨m₁, hfirst, hrest⟩ := bind_eq_ok.mp hfold
        obtain ⟨labels₂, hrun₂, -⟩ := reapAll_ok _ hrest
        rw [List.foldlM_cons] at hrest
        obtain ⟨m₂, hreap, hpost⟩ := bind_eq_ok.mp hrest
        obtain ⟨labels₁, hrun₁, hlabels₁⟩ := reapAll_ok _ hfirst
        -- the children reaped before are other services' or nobody's
        have hnot : .act name (.reap process.mainPid) ∉ labels₁ := by
          intro hmem
          obtain ⟨earlier, hearlier, heq | ⟨other, heq⟩⟩ := hlabels₁ _ hmem
          · exact nomatch heq
          · exact hpre earlier hearlier (Action.reap.inj (Label.act.inj heq).2).symm
        have hheld₁ := held_run hrun₁ hheld' hnot
        have hm₁ : Consistent m₁ := run_invariant consistent_step hrun₁
          (spawnsFresh_before (run_trace hrun₂) hfresh) (reachable_consistent hm')
        have hsame : labels₁.flatMap (labelRequests name) = [] := by
          refine List.flatMap_eq_nil_iff.mpr fun label hmem => ?_
          obtain ⟨earlier, -, rfl | ⟨other, rfl⟩⟩ := hlabels₁ label hmem <;> rfl
        rw [hsame, List.append_nil] at hheld₁
        exact ⟨m₁, m₂, hfirst, hreap, hpost, reapChild_concludes hm₁ hheld₁ hne hpid hreap⟩

/-- Here one stop of `web`, which runs as process 100. -/
theorem requests_decide_web :
    ∃ s kill, (machineAfter [createWeb, stopWeb]).get? "web" = some s
      ∧ s.state.status = .stopping ⟨100, none, 0⟩ (intended [.stop]) kill :=
  have hlive : (((machineAfter [createWeb]).get? "web").get (by decide +kernel)).state.status
      = .running ⟨100, none, 0⟩ none := by decide +kernel
  have hstop : Step (machineAfter [createWeb])
      (.handled stopWeb.1 stopWeb.2 (.response (.ok .done))) (machineAfter [createWeb, stopWeb]) :=
    .handled (by decide +kernel) (by decide +kernel)
  have hrun : Run (RequestStep "web" 100) (machineAfter [createWeb]) [[.stop]]
      (machineAfter [createWeb, stopWeb]) := .single ⟨_, hstop, nofun, rfl⟩
  (requests_decide createWeb_reachable (Option.some_get _).symm (Or.inl hlive) hrun
    (List.cons_ne_nil _ _)).1

end BeamTermination
