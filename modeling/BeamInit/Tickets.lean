import BeamInit.Channel

/-! # Tickets — what a lifecycle step does to tokens and tasks

    Three tables of the manager are fenced: the force-kills, by their tokens, and
    the grace timers and the liveness probes, by their abort handles.  A lifecycle
    step renews one entry of each, and issues the tickets that go with it. -/

namespace BeamTickets

open BeamApi BeamOs BeamService BeamManager BeamMainLoop BeamLifecycle BeamOperations
open BeamRefinement BeamConsistency BeamChannel Runs Fence

/-! ## The grace timer of an entry -/

/-- The process being stopped and its grace timer, with the token and the handle. -/
def grace : ServiceStatus → Option (ServiceProcess × PendingKill)
  | .stopping process _ (some kill) => some (process, kill)
  | _ => none

def graceOf (entry : Option Service) : Option (ServiceProcess × PendingKill) :=
  entry.bind (fun service => grace service.state.status)

/-- The token an entry shows. -/
def killOf (entry : Option Service) : Option (ServiceProcess × TerminationToken) :=
  entry.bind (fun service => pendingKill service.state.status)

/-- The grace timer an entry shows. -/
def timerOf (entry : Option Service) : Option (ServiceProcess × AbortHandle) :=
  entry.bind (fun service => pendingTimer service.state.status)

/-- A grace timer that has been spawned, with all it carries. -/
def issuedGrace : Effect → Option (Ticket String ServiceProcess PendingKill)
  | .timerSpawned task name token process _ => some ⟨name, process, token, task⟩
  | _ => none

/-- The token an entry waits with is part of its grace. -/
theorem killOf_eq (entry : Option Service) :
    killOf entry = (graceOf entry).map (Prod.map id PendingKill.token) := by
  cases entry with
  | none => rfl
  | some s =>
      show pendingKill s.state.status = (grace s.state.status).map _
      cases s.state.status with
      | stopping process afterStop kill => cases kill <;> rfl
      | _ => rfl

/-- So is the timer. -/
theorem timerOf_eq (entry : Option Service) :
    timerOf entry = (graceOf entry).map (Prod.map id PendingKill.abortHandle) := by
  cases entry with
  | none => rfl
  | some s =>
      show pendingTimer s.state.status = (grace s.state.status).map _
      cases s.state.status with
      | stopping process afterStop kill => cases kill <;> rfl
      | _ => rfl

/-- The tokens a step issues are part of the graces it issues. -/
theorem issuedKill_eq (e : Effect) :
    issuedKill e = (issuedGrace e).map (Ticket.mapToken PendingKill.token) := by
  cases e <;> rfl

/-- So are the timers. -/
theorem issuedTimer_eq (e : Effect) :
    issuedTimer e = (issuedGrace e).map (Ticket.mapToken PendingKill.abortHandle) := by
  cases e <;> rfl

/-- The force-kills and the timers issued are two views of the grace timers issued. -/
theorem issued_eq_map {T : Type} {f : PendingKill → T}
    {issue : Effect → Option (Ticket String ServiceProcess T)}
    (h : ∀ e, issue e = (issuedGrace e).map (Ticket.mapToken f)) (out : List Effect) :
    out.filterMap issue = (out.filterMap issuedGrace).map (Ticket.mapToken f) := by
  rw [List.map_filterMap]
  exact congrArg (fun g => out.filterMap g) (funext h)

/-- The probe an entry shows. -/
def probeOf (entry : Option Service) : Option (Option ServiceProcess × AbortHandle) :=
  entry.bind (fun service => watcher service.state.status service.state.livenessProbe)

section Issued

variable {V T : Type} {issue : Effect → Option (Ticket String V T)} {out : List Effect}

def issues (issue : Effect → Option (Ticket String V T)) (e : Effect) : Bool := (issue e).isSome

/-- Effects that issue nothing issue nothing. -/
theorem issued_of_lacks (h : Lacks (issues issue) out) : out.filterMap issue = [] := by
  refine List.filterMap_eq_nil_iff.mpr fun e hmem => ?_
  exact Option.not_isSome_iff_eq_none.mp (Bool.eq_false_iff.mp (h e hmem))

variable {name : String} {old new : Option (V × T)}

/-- Effects that issue nothing leave an entry that shows the same. -/
theorem renewal_kept (h : Lacks (issues issue) out) (heq : new = old) :
    Renewal name old (out.filterMap issue) new := by
  rw [issued_of_lacks h, heq]
  exact .kept

/-- An entry that shows nothing after a step without a ticket was cleared. -/
theorem renewal_cleared (h : Lacks (issues issue) out) (hnone : new = none) :
    Renewal name old (out.filterMap issue) new := by
  rw [issued_of_lacks h, hnone]
  exact .cleared

end Issued

/-- Making a sink issues no ticket. -/
theorem sink_issues_nothing {V T : Type} {issue : Effect → Option (Ticket String V T)}
    (h : ∀ e, isSink e = true → issue e = none) {out : List Effect}
    (hsink : ∀ e ∈ out, isSink e = true) : Lacks (issues issue) out := by
  intro e hmem
  show (issue e).isSome = false
  rw [h e (hsink e hmem)]
  rfl

/-- Making a sink sets no timer. -/
theorem sink_graces {e : Effect} (h : isSink e = true) : issuedGrace e = none := by
  cases e <;> first | rfl | exact nomatch h

/-- Making a sink spawns no probe. -/
theorem sink_probes {e : Effect} (h : isSink e = true) : issuedProbe e = none := by
  cases e <;> first | rfl | exact nomatch h

/-- Starting a service makes no token. -/
theorem start_graces {name : String} {reason : StartReason} {s s' : Service}
    {probe : Option AbortHandle} {out : List Effect} (h : Start name reason s probe out s') :
    Lacks (issues issuedGrace) out ∧ grace s'.state.status = none := by
  cases h with
  | running hu _ _ hs =>
      exact ⟨(Lacks.cons rfl (sink_issues_nothing (fun _ => sink_graces) hs)).append
        (.cons rfl (lacks_probe rfl)), congrArg grace hu.status_eq⟩
  | failed hu hs =>
      exact ⟨(Lacks.cons rfl (sink_issues_nothing (fun _ => sink_graces) hs)).append
        (.cons rfl .nil), congrArg grace hu.status_eq⟩
  | noPty hu => exact ⟨.cons rfl .nil, congrArg grace hu.status_eq⟩

/-- The effects end with the termination that makes the token: the process is
    sent SIGTERM and its grace timer is spawned. -/
def EndsWith (kill : ForceKill) (out : List Effect) : Prop :=
  ∃ before task period, out = before ++ sentEffects kill.item SIGTERM
    ++ [.timerSpawned task kill.name kill.token kill.item period]

/-- The action terminates a service that runs as the process of the ticket. -/
def Terminates (action : Action) (entry : Option Service) (kill : ForceKill) : Prop :=
  ∃ request s pty, action = .terminate request ∧ entry = some s
    ∧ s.state.status = .running kill.item pty

/-- Where a grace timer comes from: the action and the effects that made it. -/
def Sourced (action : Action) (entry : Option Service) (out : List Effect)
    (made : Ticket String ServiceProcess PendingKill) : Prop :=
  Terminates action entry (made.mapToken PendingKill.token)
    ∧ EndsWith (made.mapToken PendingKill.token) out

/-- **A transition renews the grace timer of its entry**, and makes one only for
    a running process that it terminates. -/
theorem transition_grace {shutdown : Bool} {name : String} {action : Action}
    {entry entry' : Option Service} {out : List Effect}
    (h : Transition shutdown name action entry out entry') :
    Renewal name (graceOf entry) (out.filterMap issuedGrace) (graceOf entry')
      ∧ ∀ made ∈ out.filterMap issuedGrace, Sourced action entry out made := by
  have hsent : ∀ process sig, Lacks (issues issuedGrace) (sentEffects process sig) :=
    fun _ _ => lacks_sent rfl rfl
  have hprobe : ∀ task, Lacks (issues issuedGrace) (abortTask .probeAborted task) :=
    lacks_abort fun _ => rfl
  have htimer : ∀ task, Lacks (issues issuedGrace) (abortTask .timerAborted task) :=
    lacks_abort fun _ => rfl
  have hsource : Lacks (issues issuedGrace) out →
      ∀ made ∈ out.filterMap issuedGrace, Sourced action entry out made := by
    intro hlacks made hmem
    rw [issued_of_lacks hlacks] at hmem
    exact nomatch hmem
  have hkept : Lacks (issues issuedGrace) out → graceOf entry' = graceOf entry →
      Renewal name (graceOf entry) (out.filterMap issuedGrace) (graceOf entry')
        ∧ ∀ made ∈ out.filterMap issuedGrace, Sourced action entry out made :=
    fun hlacks heq => ⟨renewal_kept hlacks heq, hsource hlacks⟩
  have hcleared : Lacks (issues issuedGrace) out → graceOf entry' = none →
      Renewal name (graceOf entry) (out.filterMap issuedGrace) (graceOf entry')
        ∧ ∀ made ∈ out.filterMap issuedGrace, Sourced action entry out made :=
    fun hlacks hnone => ⟨renewal_cleared hlacks hnone, hsource hlacks⟩
  cases h with
  | create _ hs => exact hcleared .nil (congrArg grace hs.status)
  | start _ _ hstart | restartDead _ _ hstart =>
      exact hcleared (start_graces hstart).1 (start_graces hstart).2
  | keep hu | stopDead _ hu => exact hkept .nil (congrArg grace hu.status_eq)
  | signal _ hout =>
      rcases hout with ⟨cmd, rfl⟩ | ⟨sig, rfl⟩
      · exact hkept (.cons rfl .nil) rfl
      · exact hkept (hsent _ _) rfl
  | freeze _ hu => exact hcleared ((hprobe _).append (hsent _ _)) (congrArg grace hu.status_eq)
  | thaw _ hu =>
      exact hcleared ((hsent _ _).append (lacks_probe rfl)) (congrArg grace hu.status_eq)
  | pruneDead _ => exact hcleared (lacks_dropped (fun _ => rfl) _) rfl
  | @merge s s' process afterStop request kill _ hst hu =>
      refine hkept .nil ?_
      show grace s'.state.status = grace s.state.status
      rw [hst, hu.status_eq]
      cases kill <;> rfl
  | terminateFrozen _ _ hu => exact hcleared (hsent _ _) (congrArg grace hu.status_eq)
  | @terminateRunning s s' process pty request _ _ _ hst hgrace hu =>
      cases hgrace with
      | now _ =>
          exact hcleared (((hprobe _).append (hsent _ _)).append (hsent _ _))
            (congrArg grace hu.status_eq)
      | @timer token task _ =>
          have hquiet := issued_of_lacks ((hprobe s.state.livenessProbe).append (hsent process SIGTERM))
          have hshow : graceOf (some s') = some (process, ⟨token, task⟩) :=
            congrArg grace hu.status_eq
          rw [List.filterMap_append, hquiet, hshow]
          refine ⟨.issued, fun made hmem => ?_⟩
          rw [List.mem_singleton.mp hmem]
          exact ⟨⟨request, s, pty, rfl, rfl, hst⟩, _, task, _, rfl⟩
  | exited _ hu => exact hcleared (.cons rfl (hprobe _)) (congrArg grace hu.status_eq)
  | stopped _ hu =>
      exact hcleared (.cons rfl ((htimer _).append (hprobe _))) (congrArg grace hu.status_eq)
  | pruned _ =>
      exact hcleared (.cons rfl (((htimer _).append (hprobe _)).append
        (lacks_dropped (fun _ => rfl) _))) rfl
  | restarted _ _ hstart =>
      exact hcleared ((Lacks.cons rfl ((htimer _).append (hprobe _))).append
        (start_graces hstart).1) (start_graces hstart).2
  | stranded _ _ hst' _ =>
      exact hcleared (.cons rfl ((htimer _).append (hprobe _))) (congrArg grace hst')
  | @log s _ line hs => exact hkept .nil (hs ▸ rfl)

/-- The token of an entry is renewed with its grace timer. -/
theorem transition_kills {shutdown : Bool} {name : String} {action : Action}
    {entry entry' : Option Service} {out : List Effect}
    (h : Transition shutdown name action entry out entry') :
    Renewal name (killOf entry) (out.filterMap issuedKill) (killOf entry')
      ∧ ∀ kill ∈ out.filterMap issuedKill, Terminates action entry kill ∧ EndsWith kill out := by
  obtain ⟨hrenew, hsource⟩ := transition_grace h
  rw [issued_eq_map issuedKill_eq, killOf_eq, killOf_eq]
  refine ⟨hrenew.mapToken _, fun kill hmem => ?_⟩
  obtain ⟨made, hmade, rfl⟩ := List.mem_map.mp hmem
  exact hsource made hmade

/-- What a transition does to the timer of its entry. -/
theorem transition_timers {shutdown : Bool} {name : String} {action : Action}
    {entry entry' : Option Service} {out : List Effect}
    (h : Transition shutdown name action entry out entry') :
    Renewal name (timerOf entry) (out.filterMap issuedTimer) (timerOf entry') := by
  rw [issued_eq_map issuedTimer_eq, timerOf_eq, timerOf_eq]
  exact (transition_grace h).1.mapToken _

/-- A service shows a token while it is Stopping with a grace timer. -/
theorem killTable_some {m : Machine} {name : String} {process : ServiceProcess}
    {token : TerminationToken} (h : killTable m name = some (process, token)) :
    ∃ s afterStop pending, m.get? name = some s
      ∧ s.state.status = .stopping process afterStop (some pending) ∧ pending.token = token := by
  obtain ⟨s, hget, hs⟩ := Option.bind_eq_some_iff.mp h
  unfold pendingKill at hs
  split at hs
  · rename_i process' afterStop pending hst
    cases hs
    exact ⟨s, afterStop, pending, hget, hst, rfl⟩
  · exact nomatch hs

/-! ## The probe of an entry -/

/-- Only a running service has a probe. -/
def Tended (s : Service) : Prop :=
  s.state.livenessProbe ≠ none → ∃ process pty, s.state.status = .running process pty

/-- A service without a probe has none to tend. -/
theorem tended_of_none {s : Service} (h : s.state.livenessProbe = none) : Tended s :=
  fun hne => absurd h hne

/-- What `start_service` leaves, on an entry without a probe. -/
theorem start_probes {name : String} {reason : StartReason} {s s' : Service} {out : List Effect}
    (h : Start name reason s none out s') (old : Option (Option ServiceProcess × AbortHandle)) :
    Renewal name old (out.filterMap issuedProbe) (probeOf (some s')) ∧ Tended s' := by
  have hsink : ∀ {sink : List Effect}, (∀ e ∈ sink, isSink e = true) →
      Lacks (issues issuedProbe) sink := sink_issues_nothing fun _ => sink_probes
  cases h with
  | @running _ process pty task sink hu _ _ hs =>
      have hquiet := issued_of_lacks (Lacks.cons (e := .starting name reason) rfl (hsink hs))
      have hshow : probeOf (some s')
          = watcher (.running process pty) (probeHandle s.config none task) := by
        rw [← hu.status_eq, ← hu.probe_eq]
        rfl
      refine ⟨?_, fun _ => ⟨process, pty, hu.status_eq⟩⟩
      rw [hshow, List.filterMap_append, hquiet]
      rw [probeHandle, probeEffects]
      cases s.config.liveness.isSome
      · exact .cleared
      · exact .issued
  | failed hu hs =>
      exact ⟨renewal_cleared ((Lacks.cons rfl (hsink hs)).append (.cons rfl .nil))
        (congrArg (watcher · _) hu.status_eq), tended_of_none hu.probe_eq⟩
  | noPty hu =>
      exact ⟨renewal_cleared (.cons rfl .nil) (congrArg (watcher · _) hu.status_eq),
        tended_of_none hu.probe_eq⟩

/-- A service that does not run has no probe. -/
theorem probe_none_of_tended {s : Service} (h : Tended s)
    (hst : ∀ process pty, s.state.status ≠ .running process pty) : s.state.livenessProbe = none := by
  by_contra hne
  obtain ⟨process, pty, hrunning⟩ := h hne
  exact hst process pty hrunning

/-- A service at rest has no probe. -/
theorem probe_none_of_isDead {s : Service} (h : Tended s) (hdead : isDead s.state.status = true) :
    s.state.livenessProbe = none := by
  refine probe_none_of_tended h fun process pty hst => ?_
  rw [hst] at hdead
  exact nomatch hdead

/-- **A transition renews the probe of its entry.** -/
theorem transition_probes {shutdown : Bool} {name : String} {action : Action}
    {entry entry' : Option Service} {out : List Effect}
    (h : Transition shutdown name action entry out entry')
    (hsettled : shutdown = true → ∀ s, entry = some s → isSettled s.state.status = true)
    (htended : ∀ s, entry = some s → Tended s) :
    Renewal name (probeOf entry) (out.filterMap issuedProbe) (probeOf entry')
      ∧ ∀ s', entry' = some s' → Tended s' := by
  have hsent : ∀ process sig, Lacks (issues issuedProbe) (sentEffects process sig) :=
    fun _ _ => lacks_sent rfl rfl
  have hprobe : ∀ task, Lacks (issues issuedProbe) (abortTask .probeAborted task) :=
    lacks_abort fun _ => rfl
  have htimer : ∀ task, Lacks (issues issuedProbe) (abortTask .timerAborted task) :=
    lacks_abort fun _ => rfl
  -- an update to a status that is not Running, with no probe
  have hended : ∀ {s s' : Service} {status : ServiceStatus} {attempts : Nat},
      Update s s' status none attempts → Lacks (issues issuedProbe) out →
      (∀ probe, watcher status probe = none) →
      Renewal name (probeOf (some s)) (out.filterMap issuedProbe) (probeOf (some s'))
        ∧ ∀ t, some s' = some t → Tended t := by
    intro s s' status attempts hu hlacks hstatus
    refine ⟨renewal_cleared hlacks ?_, fun t ht => Option.some.inj ht ▸ tended_of_none hu.probe_eq⟩
    show watcher s'.state.status s'.state.livenessProbe = none
    rw [hu.status_eq, hstatus]
  have hsame : ∀ {s s' : Service}, Lacks (issues issuedProbe) out →
      s'.state.status = s.state.status → s'.state.livenessProbe = s.state.livenessProbe →
      Tended s →
      Renewal name (probeOf (some s)) (out.filterMap issuedProbe) (probeOf (some s'))
        ∧ ∀ t, some s' = some t → Tended t := by
    intro s s' hlacks hstatus hhandle ht
    refine ⟨renewal_kept hlacks ?_, fun t heq => ?_⟩
    · show watcher s'.state.status s'.state.livenessProbe = watcher s.state.status s.state.livenessProbe
      rw [hstatus, hhandle]
    · rw [← Option.some.inj heq]
      intro hne
      rw [hhandle] at hne
      rw [hstatus]
      exact ht hne
  cases h with
  | create _ hs =>
      refine ⟨renewal_cleared .nil ?_, fun t ht => Option.some.inj ht ▸ tended_of_none hs.probe⟩
      exact congrArg (watcher · _) hs.status
  | start _ hdead hstart | restartDead _ hdead hstart =>
      rw [probe_none_of_isDead (htended _ rfl) hdead] at hstart
      exact ⟨(start_probes hstart _).1, fun t ht => Option.some.inj ht ▸ (start_probes hstart none).2⟩
  | keep hu | stopDead _ hu => exact hsame .nil hu.status_eq hu.probe_eq (htended _ rfl)
  | @signal s process _ _ hout =>
      rcases hout with ⟨cmd, rfl⟩ | ⟨sig, rfl⟩
      · exact hsame (.cons rfl .nil) rfl rfl (htended s rfl)
      · exact hsame (hsent _ _) rfl rfl (htended s rfl)
  | freeze _ hu => exact hended hu ((hprobe _).append (hsent _ _)) fun _ => rfl
  | @thaw s s' process pty task hst hu =>
      have hnone : s.state.livenessProbe = none :=
        probe_none_of_tended (htended s rfl) (fun _ _ h => by rw [hst] at h; exact nomatch h)
      have hshow : probeOf (some s') = watcher (.running process pty)
          (probeHandle s.config none task) := by
        rw [← hnone, ← hu.probe_eq, ← hu.status_eq]
        rfl
      refine ⟨?_, fun t ht => Option.some.inj ht ▸ fun _ => ⟨process, pty, hu.status_eq⟩⟩
      rw [hshow, List.filterMap_append, issued_of_lacks (hsent _ _)]
      unfold probeHandle probeEffects
      cases s.config.liveness.isSome
      · exact .cleared
      · exact .issued
  | pruneDead _ =>
      exact ⟨renewal_cleared (lacks_dropped (fun _ => rfl) _) rfl, fun _ h => nomatch h⟩
  | @merge s s' process afterStop request kill _ hst hu =>
      have hnone : s.state.livenessProbe = none :=
        probe_none_of_tended (htended s rfl) (fun _ _ h => by rw [hst] at h; exact nomatch h)
      rw [hnone] at hu
      exact hended hu .nil fun _ => rfl
  | @terminateFrozen s s' process pty _ _ hst hu =>
      have hnone : s.state.livenessProbe = none :=
        probe_none_of_tended (htended s rfl) (fun _ _ h => by rw [hst] at h; exact nomatch h)
      rw [hnone] at hu
      exact hended hu (hsent _ _) fun _ => rfl
  | terminateRunning _ _ hgrace hu =>
      refine hended hu (((hprobe _).append (hsent _ _)).append ?_) fun _ => rfl
      cases hgrace with
      | now _ => exact hsent _ _
      | timer _ => exact .cons rfl .nil
  | exited _ hu => exact hended hu (.cons rfl (hprobe _)) fun _ => rfl
  | stopped _ hu => exact hended hu (.cons rfl ((htimer _).append (hprobe _))) fun _ => rfl
  | pruned _ =>
      exact ⟨renewal_cleared (.cons rfl (((htimer _).append (hprobe _)).append
        (lacks_dropped (fun _ => rfl) _))) rfl, fun _ h => nomatch h⟩
  | restarted _ _ hstart =>
      refine ⟨?_, fun t ht => Option.some.inj ht ▸ (start_probes hstart none).2⟩
      rw [List.filterMap_append, issued_of_lacks (.cons rfl ((htimer _).append (hprobe _)))]
      exact (start_probes hstart _).1
  | stranded hshut hst _ _ =>
      -- a settled service has no restart pending
      have := hsettled hshut _ rfl
      rw [hst] at this
      exact nomatch this
  | @log s _ line hs =>
      subst hs
      exact hsame .nil rfl rfl (htended s rfl)

/-! ## One lifecycle step -/

/-- Writing an entry changes what this name shows, and no other. -/
theorem write_shows {A : Type} (f : Option Service → A) (m : Machine) (name : String)
    (entry : Option Service) (out : List Effect) :
    (fun other => f ((write m name entry out).get? other))
      = Function.update (fun other => f (m.get? other)) name (f entry) := by
  funext other
  rw [get?_write, Function.update_apply]
  by_cases h : name = other
  · rw [if_pos h, if_pos h.symm]
  · rw [if_neg h, if_neg (Ne.symm h)]

/-- `m'` shows the tokens, the timers and the probes of `m`, but for one entry,
    whose renewals are in `out`. -/
structure Renewed (m m' : Machine) (out : List Effect) (name : String)
    (kill : Option (ServiceProcess × TerminationToken))
    (timer : Option (ServiceProcess × AbortHandle))
    (probe : Option (Option ServiceProcess × AbortHandle)) : Prop where
  kills_eq : killTable m' = Function.update (killTable m) name kill
  kills : Renewal name (killTable m name) (out.filterMap issuedKill) kill
  timers_eq : timerTable m' = Function.update (timerTable m) name timer
  timers : Renewal name (timerTable m name) (out.filterMap issuedTimer) timer
  probes_eq : probeTable m' = Function.update (probeTable m) name probe
  probes : Renewal name (probeTable m name) (out.filterMap issuedProbe) probe

/-- A step that changes no entry and issues nothing. -/
theorem renewed_same {m m' : Machine} {out : List Effect} (hget : ∀ name, m'.get? name = m.get? name)
    (hkills : out.filterMap issuedKill = []) (htimers : out.filterMap issuedTimer = [])
    (hprobes : out.filterMap issuedProbe = []) :
    Renewed m m' out "" (killTable m "") (timerTable m "") (probeTable m "") where
  kills_eq := by
    rw [Function.update_eq_self]
    funext name
    exact congrArg killOf (hget name)
  kills := by rw [hkills]; exact .kept
  timers_eq := by
    rw [Function.update_eq_self]
    funext name
    exact congrArg timerOf (hget name)
  timers := by rw [htimers]; exact .kept
  probes_eq := by
    rw [Function.update_eq_self]
    funext name
    exact congrArg probeOf (hget name)
  probes := by rw [hprobes]; exact .kept

/-- Every service of the table is probed only while it runs. -/
def AllTended (m : Machine) : Prop := ∀ name s, m.get? name = some s → Tended s

/-- **Every lifecycle step renews one entry.** -/
theorem lifecycle_renewed {m m' : Machine} {label : Label} {out : List Effect}
    (hm : Consistent m) (htended : AllTended m) (h : Lifecycle m label m')
    (hout : m'.trace = m.trace ++ out) :
    (∃ name kill timer probe, Renewed m m' out name kill timer probe) ∧ AllTended m' := by
  cases h with
  | @act name action out' entry ht =>
      rw [write_trace] at hout
      obtain rfl := List.append_cancel_left hout
      obtain ⟨hprobes, hentry⟩ := transition_probes ht (fun hshut => hm.settled hshut name)
        (htended name)
      refine ⟨⟨name, killOf entry, timerOf entry, probeOf entry, write_shows killOf m name entry out',
        (transition_kills ht).1, write_shows timerOf m name entry out', transition_timers ht,
        write_shows probeOf m name entry out', hprobes⟩, fun other s hget => ?_⟩
      rw [get?_write] at hget
      by_cases hname : name = other
      · rw [if_pos hname] at hget
        exact hentry s hget
      · rw [if_neg hname] at hget
        exact htended other s hget
  | foreign _ =>
      obtain rfl := List.append_cancel_left hout
      exact ⟨⟨_, _, _, _, renewed_same (fun _ => rfl) rfl rfl rfl⟩, htended⟩
  | shutdown _ _ =>
      obtain rfl := List.self_eq_append_right.mp hout
      exact ⟨⟨_, _, _, _, renewed_same (fun _ => rfl) rfl rfl rfl⟩, htended⟩

end BeamTickets
