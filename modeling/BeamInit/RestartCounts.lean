import BeamInit.Termination
import BeamInit.Streaks

/-! # Restart counts — what `automatic_restart_attempts` counts

    The counter is kept in the entry and only ever set by `start_service`.  Read
    against the starts of a service, in order, it is the streak of automatic ones
    at their end, as far as a `u32` goes; and there are no more automatic starts
    than there were failed probes. -/

namespace BeamRestartCounts

open BeamApi BeamOs BeamLogs BeamService BeamManager BeamCommands BeamMainLoop BeamLifecycle
open BeamOperations BeamRefinement BeamConsistency BeamTermination Runs Streaks

/-! ## The starts of a service -/

/-- The reason of a start of the service. -/
def startReason (name : String) : Effect → Option StartReason
  | .starting other reason => if other = name then some reason else none
  | _ => none

/-- The starts of a service, in order. -/
def starts (name : String) (trace : List Effect) : List StartReason :=
  trace.filterMap (startReason name)

def isAutomatic (reason : StartReason) : Bool := reason = .automatic

section Starts

variable {name other : String} {out out' : List Effect} {reason : StartReason}

/-- The starts of a longer trace are those before and those since. -/
theorem starts_append (name : String) (out out' : List Effect) :
    starts name (out ++ out') = starts name out ++ starts name out' :=
  List.filterMap_append

/-- Only the effects of a start count. -/
theorem starts_filter (name : String) (out : List Effect) :
    starts name (out.filter isStarting) = starts name out := by
  rw [starts, List.filterMap_filter]
  refine List.filterMap_congr fun e _ => ?_
  cases e <;> rfl

/-- Effects without a start add none. -/
theorem starts_of_lacks (h : Lacks isStarting out) : starts name out = [] := by
  rw [← starts_filter, filter_lacks h]
  rfl

/-- One start is the one with its reason. -/
theorem starts_of_once (h : out.filter isStarting = [.starting name reason]) :
    starts name out = [reason] := by
  rw [← starts_filter, h]
  exact List.filterMap_cons_some (if_pos rfl)

/-- The start of another service is none of this one. -/
theorem starts_of_other (h : out.filter isStarting = [.starting name reason]) (hne : other ≠ name) :
    starts other out = [] := by
  rw [← starts_filter, h]
  exact List.filterMap_cons_none (if_neg hne.symm)

/-- The counter `start_service` sets, of the streak it had. -/
theorem restartAttempts_streak (reason : StartReason) (reasons : List StartReason) :
    restartAttempts reason (min (streak isAutomatic reasons) u32Max)
      = min (streak isAutomatic (reasons ++ [reason])) u32Max := by
  cases reason with
  | user => rw [streak_concat_neg _ rfl, Nat.zero_min, restartAttempts]
  | automatic =>
      rw [streak_concat_pos _ rfl, restartAttempts]
      omega

end Starts

/-! ## What a transition counts -/

/-- An automatic restart waits for the process to be reaped. -/
def pendingAutomatic : Option Service → Nat
  | some s =>
      match s.state.status with
      | .stopping _ (.restart .automatic) _ => 1
      | _ => 0
  | none => 0

/-- The action asks for an automatic start. -/
def asks : Action → Nat
  | .start .automatic | .terminate (.restart .automatic) => 1
  | _ => 0

/-- A transition starts nothing and keeps the counter, or starts its service once. -/
inductive Counted (name : String) (action : Action) (entry : Option Service) (out : List Effect)
    (entry' : Option Service) : Prop where
  | quiet : Lacks isStarting out →
      pendingAutomatic entry' ≤ pendingAutomatic entry + asks action →
      (action ≠ .create → ∀ s', entry' = some s' → ∃ s, entry = some s
        ∧ s'.state.automaticRestartAttempts = s.state.automaticRestartAttempts) →
      Counted name action entry out entry'
  | started {s s' : Service} {reason : StartReason} : entry = some s → entry' = some s' →
      out.filter isStarting = [.starting name reason] →
      s'.state.automaticRestartAttempts
        = restartAttempts reason s.state.automaticRestartAttempts →
      pendingAutomatic entry' = 0 →
      (reason = .automatic → 1 ≤ pendingAutomatic entry + asks action) →
      Counted name action entry out entry'

section Transitions

variable {name : String} {s s' : Service} {out : List Effect} {shutdown : Bool}

/-- Only a stop that ends in an automatic restart has one pending. -/
theorem pendingAutomatic_status {status : ServiceStatus} (hst : s.state.status = status)
    (h : ∀ process kill, status ≠ .stopping process (.restart .automatic) kill) :
    pendingAutomatic (some s) = 0 := by
  rw [pendingAutomatic]
  rw [hst]
  split
  · exact absurd rfl (h _ _)
  · rfl

/-- Whether an automatic restart is pending is told by the request that waits. -/
theorem pendingAutomatic_stopping {process : ServiceProcess} {afterStop : AfterStop}
    {kill : Option PendingKill} (hst : s.state.status = .stopping process afterStop kill) :
    pendingAutomatic (some s) = if afterStop = .restart .automatic then 1 else 0 := by
  rw [pendingAutomatic]
  rw [hst]
  cases afterStop with
  | restart reason => cases reason <;> rfl
  | stop | prune => rfl

/-- A start sets the counter by its reason. -/
theorem start_counted {reason : StartReason} {probe : Option AbortHandle}
    (h : Start name reason s probe out s') :
    s'.state.automaticRestartAttempts = restartAttempts reason s.state.automaticRestartAttempts := by
  cases h with
  | running hu _ _ _ => exact hu.attempts_eq
  | failed hu _ => exact hu.attempts_eq
  | noPty hu => exact hu.attempts_eq

/-- A start, with some effects before it. -/
theorem counted_of_start {action : Action} {reason : StartReason} {probe : Option AbortHandle}
    {before : List Effect} (h : Start name reason s probe out s') (hbefore : Lacks isStarting before)
    (hasks : reason = .automatic → 1 ≤ pendingAutomatic (some s) + asks action) :
    Counted name action (some s) (before ++ out) (some s') := by
  obtain ⟨honce, hstatus⟩ := start_once h
  refine .started rfl rfl ?_ (start_counted h) ?_ hasks
  · rw [List.filter_append, filter_lacks hbefore]
    exact honce
  · rcases hstatus with ⟨process, pty, hst⟩ | ⟨err, hst⟩
    · exact pendingAutomatic_status hst fun _ _ => nofun
    · exact pendingAutomatic_status hst fun _ _ => nofun

/-- An update that keeps the counter and leaves no automatic restart pending. -/
theorem counted_of_update {action : Action} {status : ServiceStatus} {probe : Option AbortHandle}
    (hu : Update s s' status probe s.state.automaticRestartAttempts) (hout : Lacks isStarting out)
    (h : ∀ process kill, status ≠ .stopping process (.restart .automatic) kill) :
    Counted name action (some s) out (some s') := by
  refine .quiet hout ?_ fun _ t ht => ?_
  · rw [pendingAutomatic_status hu.status_eq h]
    exact Nat.zero_le _
  · cases ht
    exact ⟨s, rfl, hu.attempts_eq⟩

/-- An update that keeps the counter and the status. -/
theorem counted_of_kept {action : Action} (hst : s'.state.status = s.state.status)
    (hattempts : s'.state.automaticRestartAttempts = s.state.automaticRestartAttempts)
    (hout : Lacks isStarting out) : Counted name action (some s) out (some s') := by
  refine .quiet hout ?_ fun _ t ht => ?_
  · have hsame : pendingAutomatic (some s') = pendingAutomatic (some s) := by
      rw [pendingAutomatic, pendingAutomatic]
      rw [hst]
    rw [hsame]
    exact Nat.le_add_right _ _
  · cases ht
    exact ⟨s, rfl, hattempts⟩

/-- A merged request is an automatic restart only if one of the two is. -/
theorem merge_automatic {afterStop request : AfterStop}
    (h : afterStop.merge request = .restart .automatic) :
    afterStop = .restart .automatic ∨ request = .restart .automatic := by
  cases afterStop with
  | prune => exact nomatch h
  | stop | restart _ =>
      cases request with
      | prune | stop => exact nomatch h
      | restart reason =>
          cases reason with
          | automatic => exact .inr rfl
          | user => exact nomatch h

/-- **What a transition counts**, case by case. -/
theorem transition_counted {action : Action} {entry entry' : Option Service}
    (h : Transition shutdown name action entry out entry')
    (hsettled : shutdown = true → ∀ s, entry = some s → isSettled s.state.status = true) :
    Counted name action entry out entry' := by
  have hprobe : ∀ task, Lacks isStarting (abortTask .probeAborted task) :=
    lacks_abort fun _ => rfl
  have htimer : ∀ task, Lacks isStarting (abortTask .timerAborted task) :=
    lacks_abort fun _ => rfl
  have hsent : ∀ process sig, Lacks isStarting (sentEffects process sig) :=
    fun _ _ => lacks_sent rfl rfl
  have hreaped : ∀ pid status kill probe, Lacks isStarting (.reaped pid status ::
      (abortTask .timerAborted kill ++ abortTask .probeAborted probe)) :=
    fun _ _ _ _ => .cons rfl ((htimer _).append (hprobe _))
  have hasked : ∀ {request : AfterStop} {n : Nat}, (if request = .restart .automatic then 1 else 0)
      ≤ n + asks (.terminate request) := by
    intro request n
    cases request with
    | stop | prune => exact Nat.zero_le _
    | restart reason =>
        cases reason with
        | user => exact Nat.zero_le _
        | automatic => exact Nat.le_add_left 1 n
  cases h with
  | create _ hs =>
      refine .quiet .nil ?_ fun hne => absurd rfl hne
      rw [pendingAutomatic_status hs.status fun _ _ => nofun]
      exact Nat.zero_le _
  | @start s s' reason out _ _ hstart =>
      rw [← List.nil_append out]
      exact counted_of_start hstart .nil fun ha => ha ▸ Nat.le_add_left 1 _
  | @restartDead s s' reason out _ _ hstart =>
      rw [← List.nil_append out]
      exact counted_of_start hstart .nil fun ha => ha ▸ Nat.le_add_left 1 _
  | keep hu => exact counted_of_kept hu.status_eq hu.attempts_eq .nil
  | stopDead _ hu => exact counted_of_kept hu.status_eq hu.attempts_eq .nil
  | log hlog => exact hlog ▸ counted_of_kept rfl rfl .nil
  | signal _ hout =>
      refine counted_of_kept rfl rfl ?_
      rcases hout with ⟨cmd, rfl⟩ | ⟨sig, rfl⟩
      · exact .cons rfl .nil
      · exact hsent _ sig
  | freeze _ hu => exact counted_of_update hu ((hprobe _).append (hsent _ _)) fun _ _ => nofun
  | thaw _ hu => exact counted_of_update hu ((hsent _ _).append (lacks_probe rfl)) fun _ _ => nofun
  | pruneDead _ =>
      exact .quiet (lacks_dropped (fun _ => rfl) _) (Nat.zero_le _) fun _ _ => nofun
  | @merge s s' process afterStop request kill _ hst hu =>
      refine .quiet .nil ?_ fun _ t ht => ?_
      · rw [pendingAutomatic_stopping hu.status_eq, pendingAutomatic_stopping hst]
        by_cases hmerge : afterStop.merge request = .restart .automatic
        · rw [if_pos hmerge]
          rcases merge_automatic hmerge with rfl | rfl
          · exact Nat.le_add_right 1 _
          · exact Nat.le_add_left 1 _
        · rw [if_neg hmerge]
          exact Nat.zero_le _
      · cases ht
        exact ⟨s, rfl, hu.attempts_eq⟩
  | terminateFrozen _ _ hu =>
      refine .quiet (hsent _ _) ?_ fun _ t ht => ?_
      · rw [pendingAutomatic_stopping hu.status_eq]
        exact hasked
      · cases ht
        exact ⟨_, rfl, hu.attempts_eq⟩
  | terminateRunning _ _ hgrace hu =>
      refine .quiet (((hprobe _).append (hsent _ _)).append ?_) ?_ fun _ t ht => ?_
      · cases hgrace with
        | now _ => exact hsent _ _
        | timer _ => exact .cons rfl .nil
      · rw [pendingAutomatic_stopping hu.status_eq]
        exact hasked
      · cases ht
        exact ⟨_, rfl, hu.attempts_eq⟩
  | exited _ hu => exact counted_of_update hu (.cons rfl (hprobe _)) fun _ _ => nofun
  | stopped _ hu => exact counted_of_update hu (hreaped _ _ _ _) fun _ _ => nofun
  | pruned _ =>
      exact .quiet ((hreaped _ _ _ _).append (lacks_dropped (fun _ => rfl) _)) (Nat.zero_le _)
        fun _ _ => nofun
  | restarted _ hst hstart =>
      refine counted_of_start hstart (hreaped _ _ _ _) fun ha => ?_
      rw [pendingAutomatic_stopping hst, ha]
      exact Nat.le_add_right 1 _
  | stranded hshut hst _ _ =>
      -- with the flag up no restart is pending
      have hsettled := hsettled hshut _ rfl
      rw [hst] at hsettled
      exact nomatch hsettled

end Transitions

/-! ## What a step counts -/

/-- Once the flag is up, no restart is pending. -/
def Settled (m : Machine) : Prop :=
  m.mgr.shutdown = true → ∀ name s, m.get? name = some s → isSettled s.state.status = true

section Steps

variable {m m' : Machine} {name : String} {label : Label}

/-- The steps of a settled machine keep it settled. -/
theorem settled_step (h : Settled m) (hstep : Lifecycle m label m') : Settled m' := by
  cases hstep with
  | @act name action out entry ht =>
      intro hshut other s hget
      rw [write_shutdown] at hshut
      rw [get?_write] at hget
      by_cases hname : name = other
      · rw [if_pos hname] at hget
        rw [hshut] at ht
        exact transition_settled (hget ▸ ht) (h hshut name)
      · rw [if_neg hname] at hget
        exact h hshut other s hget
  | foreign _ => exact h
  | shutdown _ hsettled => exact fun _ => hsettled

/-- A step is an action on the service, or nothing to its entry and its starts. -/
theorem step_counts (h : Settled m) (hstep : Lifecycle m label m') (name : String) :
    (∃ action out, label = .act name action ∧ m'.trace = m.trace ++ out
        ∧ Counted name action (m.get? name) out (m'.get? name))
      ∨ (m'.get? name = m.get? name ∧ starts name m'.trace = starts name m.trace) := by
  cases hstep with
  | @act other action out entry ht =>
      have hcounted := transition_counted ht fun hshut => h hshut other
      by_cases hname : other = name
      · subst hname
        refine .inl ⟨action, out, rfl, write_trace entry, ?_⟩
        rw [get?_write, if_pos rfl]
        exact hcounted
      · refine .inr ⟨?_, ?_⟩
        · rw [get?_write, if_neg hname]
        · have hnone : starts name out = [] := by
            cases hcounted with
            | quiet hlacks _ _ => exact starts_of_lacks hlacks
            | started _ _ honce _ _ _ => exact starts_of_other honce (Ne.symm hname)
          rw [write_trace, starts_append, hnone, List.append_nil]
  | foreign _ =>
      refine .inr ⟨rfl, ?_⟩
      show starts name (m.trace ++ [_]) = _
      rw [starts_append]
      exact List.append_nil _
  | shutdown _ _ => exact .inr ⟨rfl, rfl⟩

/-- The counter is the streak of automatic starts; a service has been started. -/
def Tallied (name : String) (m : Machine) : Prop :=
  ∀ s, m.get? name = some s → starts name m.trace ≠ []
    ∧ s.state.automaticRestartAttempts = min (streak isAutomatic (starts name m.trace)) u32Max

/-- Every step but a creation keeps the tally. -/
theorem tallied_step (hsettled : Settled m) (h : Tallied name m) (hstep : Lifecycle m label m')
    (hlabel : label ≠ .act name .create) : Tallied name m' := by
  intro t ht
  rcases step_counts hsettled hstep name with ⟨action, out, rfl, htrace, hcounted⟩ | ⟨hsame, hstarts⟩
  · rw [htrace, starts_append]
    cases hcounted with
    | quiet hlacks _ hkept =>
        obtain ⟨s, hs, hattempts⟩ := hkept (fun ha => hlabel (ha ▸ rfl)) t ht
        rw [starts_of_lacks hlacks, List.append_nil, hattempts]
        exact h s hs
    | @started s s' reason hs hs' honce hattempts _ _ =>
        cases hs'.symm.trans ht
        rw [starts_of_once honce, hattempts, (h s hs).2]
        exact ⟨List.append_ne_nil_of_right_ne_nil _ (List.cons_ne_nil _ _),
          restartAttempts_streak reason _⟩
  · rw [hstarts]
    exact h t (hsame ▸ ht)

/-- The automatic starts of a service, and the one that waits. -/
def automatic (name : String) (m : Machine) : Nat :=
  (starts name m.trace).count .automatic + pendingAutomatic (m.get? name)

def asksFor (name : String) : Label → Nat
  | .act other action => if other = name then asks action else 0
  | _ => 0

/-- A step adds an automatic start only if it asks for one. -/
theorem automatic_step (hsettled : Settled m) (hstep : Lifecycle m label m') (name : String) :
    automatic name m' ≤ automatic name m + asksFor name label := by
  rcases step_counts hsettled hstep name with ⟨action, out, rfl, htrace, hcounted⟩ | ⟨hsame, hstarts⟩
  · rw [automatic, automatic, htrace, starts_append, List.count_append, asksFor, if_pos rfl]
    cases hcounted with
    | quiet hlacks hpending _ =>
        rw [starts_of_lacks hlacks, List.count_nil]
        omega
    | @started s s' reason _ _ honce _ hpending hasks =>
        rw [starts_of_once honce, hpending]
        cases reason with
        | user =>
            have hcount : List.count StartReason.automatic [StartReason.user] = 0 := rfl
            omega
        | automatic =>
            have hcount : List.count StartReason.automatic [StartReason.automatic] = 1 := rfl
            have := hasks rfl
            omega
  · rw [automatic, automatic, hsame, hstarts]
    exact Nat.le_add_right _ _

/-! ## What an event counts -/

variable {os : Os} {event : Event} {reply : Reply}

/-- A service is created and started by its user in one event. -/
theorem createServiceCmd_ok {credentials : Credentials} {service : CreateService}
    {reply : Except ServiceError Response}
    (h : handleApiCommand os m (.createService name service) credentials = .ok (reply, m')) :
    m' = m ∨ ∃ s s' out, Created s ∧ Start name .user s none out s' ∧ m' = m.put name s' out := by
  rw [handleApiCommand] at h
  dsimp only at h
  cases henv : serviceEnvironment os m credentials name service.env with
  | error e =>
      rw [henv] at h
      cases h
      exact .inl rfl
  | ok env =>
      rw [henv] at h
      dsimp only at h
      cases hcreate : createService m name (requestedConfig service env credentials) with
      | mk result m₁ =>
          rw [hcreate] at h
          rcases createService_ok hcreate with ⟨rfl, e, rfl⟩ | ⟨rfl, hshut, -, s, hs, hconfig, rfl⟩
          · cases h
            exact .inl rfl
          · obtain ⟨⟨result, m₂⟩, hstart, h⟩ := bind_eq_ok.mp h
            cases h
            have hcred : s.checkCredentials credentials = .ok () :=
              Service.checkCredentials_iff.mpr (Or.inr (by rw [hconfig]; rfl))
            obtain ⟨s', out, hentry, rfl⟩ := startService_ok hstart hshut get?_put_self hcred
            have hstarted := (startEntry_ok hentry (Copy.refl s)).1
            rw [hs.probe] at hstarted
            refine .inr ⟨s, s', out, hs, hstarted, ?_⟩
            rw [put_put]
            rfl

/-- A creation with its first start begins a tally. -/
theorem tallied_created {other : String} {s s' : Service} {out : List Effect} (hs : Created s)
    (hstart : Start other .user s none out s') (h : Tallied name m) :
    Tallied name (m.put other s' out) := by
  obtain ⟨honce, -⟩ := start_once hstart
  intro t ht
  show starts name (m.trace ++ out) ≠ []
    ∧ _ = min (streak isAutomatic (starts name (m.trace ++ out))) u32Max
  rw [starts_append]
  by_cases hname : name = other
  · subst hname
    cases get?_put_self.symm.trans ht
    rw [starts_of_once honce, start_counted hstart, hs.attempts, streak_concat_neg _ rfl]
    exact ⟨List.append_ne_nil_of_right_ne_nil _ (List.cons_ne_nil _ _), rfl⟩
  · rw [starts_of_other honce hname, List.append_nil]
    rw [get?_put_ne (Ne.symm hname)] at ht
    exact h t ht

/-- Only a request to create a service creates one. -/
theorem caused_create {other : String} (h : Caused os event (.act other .create)) :
    ∃ name service credentials, event = .command (.createService name service) credentials := by
  cases h with
  | @command cmd credentials _ _ _ hserves =>
      cases cmd with
      | createService name service => exact ⟨name, service, credentials, rfl⟩
      | restartService _ | stopService _ _ | freezeService _ | thawService _ | showService _
      | listServices | serviceLogs _ _ | notifyPtyAttached _ | notifyPtyDetached _ | sendSignal _ _
      | forceKillService _ _ => simp [serves] at hserves

/-- Nothing but a failed probe asks for an automatic start. -/
theorem caused_asks (h : Caused os event label) (hevent : event ≠ .probeFailed name) :
    asksFor name label = 0 := by
  cases h with
  | @command cmd credentials other action _ hserves =>
      have hasks : asks action = 0 := by
        cases cmd with
        | createService _ _ =>
            rcases (decide_eq_true_eq.mp hserves : _ ∨ _) with rfl | rfl <;> rfl
        | stopService _ prune => cases prune <;> cases decide_eq_true_eq.mp hserves <;> rfl
        | freezeService _ | thawService _ =>
            rcases (decide_eq_true_eq.mp hserves : _ ∨ _) with rfl | rfl <;> rfl
        | restartService _ | notifyPtyAttached _ | notifyPtyDetached _ | sendSignal _ _
        | forceKillService _ _ =>
            cases decide_eq_true_eq.mp hserves
            rfl
        | showService _ | listServices | serviceLogs _ _ => exact nomatch hserves
      rw [asksFor, hasks]
      exact ite_self 0
  | @restart other => exact if_neg fun (hname : other = name) => hevent (hname ▸ rfl)
  | log | reaped _ | stop _ => exact ite_self 0
  | foreign _ | shutdown _ => rfl

/-- The same for a run. -/
theorem settled_run {labels : List Label} (h : Settled m) (hrun : Run Lifecycle m labels m') :
    Settled m' := hrun.invariant (I := Settled) settled_step h

/-- The same for an event. -/
theorem settled_event (hm : Settled m) (h : handleEvent os m event = .ok (reply, m')) :
    Settled m' := by
  obtain ⟨labels, hrun, -⟩ := handleEvent_ok h
  exact settled_run hm hrun

/-- **Every event** keeps the tally. -/
theorem tallied_event (hm : Settled m) (ht : Tallied name m)
    (h : handleEvent os m event = .ok (reply, m')) : Tallied name m' := by
  by_cases hcreate : ∃ other service credentials,
      event = .command (.createService other service) credentials
  · obtain ⟨other, service, credentials, rfl⟩ := hcreate
    obtain ⟨⟨result, m₁⟩, hcmd, h⟩ := bind_eq_ok.mp h
    cases h
    rcases createServiceCmd_ok hcmd with rfl | ⟨s, s', out, hs, hstart, rfl⟩
    · exact ht
    · exact tallied_created hs hstart ht
  · obtain ⟨labels, hrun, hlabels⟩ := handleEvent_ok h
    exact (hrun.invariant_of (I := fun m => Settled m ∧ Tallied name m)
      (Q := fun label => label ≠ .act name .create)
      (fun hlabel hI hstep => ⟨settled_step hI.1 hstep, tallied_step hI.1 hI.2 hstep hlabel⟩)
      (fun label hmem heq => hcreate (caused_create (heq ▸ hlabels label hmem))) ⟨hm, ht⟩).2

/-- A failed probe is one request to restart, at most. -/
theorem automatic_probeFailed (hm : Settled m)
    (h : handleEvent os m (.probeFailed name) = .ok (reply, m')) :
    automatic name m' ≤ automatic name m + 1 := by
  obtain ⟨m₂, hprobe, h⟩ := bind_eq_ok.mp h
  cases h
  obtain ⟨result, m₁, hstop, hlog⟩ := handleProbeFailed_ok hprobe
  have hfirst : Settled m₁ ∧ automatic name m₁ ≤ automatic name m + 1 := by
    rcases stopServiceCmd_ok hstop with ⟨rfl, -⟩ | ⟨-, hstep, -⟩
    · exact ⟨hm, Nat.le_succ _⟩
    · refine ⟨settled_step hm hstep, ?_⟩
      have hauto := automatic_step hm hstep name
      rw [asksFor, if_pos rfl] at hauto
      exact hauto
  rcases hlog with ⟨rfl, -⟩ | ⟨s, line, e, -, hget, rfl⟩
  · exact hfirst.2
  · have hpushed : Lifecycle m₁ (.act name .log) (m₁.put name (pushLine s line) []) := act_log hget
    have hauto := automatic_step hfirst.1 hpushed name
    rw [asksFor, if_pos rfl] at hauto
    exact hauto.trans hfirst.2

/-- An event that is no probe failure of the service adds no automatic start. -/
theorem automatic_event (hm : Settled m) (hevent : event ≠ .probeFailed name)
    (h : handleEvent os m event = .ok (reply, m')) : automatic name m' ≤ automatic name m := by
  obtain ⟨labels, hrun, hlabels⟩ := handleEvent_ok h
  refine (hrun.invariant_of (I := fun m₁ => Settled m₁ ∧ automatic name m₁ ≤ automatic name m)
    (Q := fun label => asksFor name label = 0) (fun hasks hI hstep => ?_)
    (fun label hmem => caused_asks (hlabels label hmem) hevent) ⟨hm, Nat.le_refl _⟩).2
  have hauto := automatic_step hI.1 hstep name
  rw [hasks] at hauto
  exact ⟨settled_step hI.1 hstep, hauto.trans hI.2⟩

end Steps

/-! ## Runs -/

/-- The main loop took a failure of the service's probe off its channel. -/
def probeFailure (name : String) : Move → Bool
  | .handled _ (.probeFailed other) _ => other = name
  | _ => false

/-- What a service is shown with is the counter of its entry. -/
theorem shown_attempts {os : Os} {m m' : Machine} {name : String} {credentials : Credentials}
    {service : ApiService} (h : handleEvent os m (.command (.showService name) credentials)
      = .ok (.response (.ok (.service service)), m')) :
    ∃ s, m.get? name = some s ∧ service.automaticRestartAttempts = s.state.automaticRestartAttempts := by
  obtain ⟨⟨result, m₁⟩, hcmd, h⟩ := bind_eq_ok.mp h
  cases h
  rw [handleApiCommand] at hcmd
  cases hget : getService m credentials name with
  | error e =>
      rw [hget] at hcmd
      cases hcmd
  | ok s =>
      rw [hget] at hcmd
      obtain ⟨shown, hshown, hcmd⟩ := bind_eq_ok.mp hcmd
      cases hcmd
      obtain ⟨status, -, hshown⟩ := bind_eq_ok.mp hshown
      cases hshown
      exact ⟨s, (getService_iff.mp hget).1, rfl⟩

/-- **HEADLINE.** In every run of the main loop the restart counter of a service, which
    the API shows, is the number of automatic starts since its user last had it started,
    up to the largest `u32`; and no service is started automatically more often than its
    probe failed. -/
theorem restart_counts {files : List String} {lines : NonZeroUsize} {moves : List Move}
    {m : Machine} (hrun : Run Step (newMachine files lines) moves m) (name : String) :
    (∀ s, m.get? name = some s → s.state.automaticRestartAttempts
        = min (streak isAutomatic (starts name m.trace)) u32Max)
      ∧ (∀ os credentials service m',
          handleEvent os m (.command (.showService name) credentials)
            = .ok (.response (.ok (.service service)), m') →
          service.automaticRestartAttempts = min (streak isAutomatic (starts name m.trace)) u32Max)
      ∧ (starts name m.trace).count .automatic ≤ moves.countP (probeFailure name) := by
  have hnew : Tallied name (newMachine files lines) := fun s hget => nomatch hget
  have hinv : Settled m ∧ Tallied name m ∧ automatic name m ≤ moves.countP (probeFailure name) := by
    refine hrun.history (I := fun moves m => Settled m ∧ Tallied name m
      ∧ automatic name m ≤ moves.countP (probeFailure name)) ?_
      ⟨(consistent_new files lines).settled, hnew, Nat.zero_le _⟩
    rintro moves m move m' ⟨hsettled, htallied, hauto⟩ hstep
    rw [List.countP_append, List.countP_singleton]
    cases hstep with
    | @handled _ os event reply hevent _ =>
        refine ⟨settled_event hsettled hevent, tallied_event hsettled htallied hevent, ?_⟩
        by_cases hprobe : event = .probeFailed name
        · subst hprobe
          have hone : probeFailure name (.handled os (.probeFailed name) reply) = true :=
            decide_eq_true rfl
          rw [if_pos hone]
          exact (automatic_probeFailed hsettled hevent).trans (Nat.add_le_add_right hauto 1)
        · exact ((automatic_event hsettled hprobe hevent).trans hauto).trans (Nat.le_add_right _ _)
    | @logged other line service hget =>
        have hlog : Lifecycle m (.act other .log) (m.put other (pushLine service line) []) :=
          act_log hget
        refine ⟨settled_step hsettled hlog, tallied_step hsettled htallied hlog ?_, ?_⟩
        · exact fun heq => nomatch (Label.act.inj heq).2
        · have hstep := automatic_step hsettled hlog name
          have hasks : asksFor name (.act other .log) = 0 := ite_self 0
          rw [hasks] at hstep
          exact (hstep.trans hauto).trans (Nat.le_add_right _ _)
  have hcounter : ∀ s, m.get? name = some s → s.state.automaticRestartAttempts
      = min (streak isAutomatic (starts name m.trace)) u32Max :=
    fun s hget => (hinv.2.1 s hget).2
  refine ⟨hcounter, fun os credentials service m' hshow => ?_, ?_⟩
  · obtain ⟨s, hget, hattempts⟩ := shown_attempts hshow
    exact hattempts.trans (hcounter s hget)
  · exact (Nat.le_add_right _ _).trans hinv.2.2

/-- The probe of `web` fails; its process dies and is started again. -/
def failedWeb : List (Os × Event) :=
  [createWeb, (steadyOs 0 1 [], .probeFailed "web"), exitOf 100]

theorem restart_counts_web :
    ∃ files lines moves, Run Step (newMachine files lines) moves (machineAfter failedWeb)
      ∧ starts "web" (machineAfter failedWeb).trace = [.user, .automatic]
      ∧ 1 ≤ moves.countP (probeFailure "web") := by
  have hreachable : Reachable (machineAfter failedWeb) :=
    machineAfter_reachable (by decide +kernel) (by decide +kernel)
  obtain ⟨files, lines, moves, hrun⟩ := hreachable
  have hstarts : starts "web" (machineAfter failedWeb).trace = [.user, .automatic] := by
    decide +kernel
  have hcount := (restart_counts hrun "web").2.2
  rw [hstarts] at hcount
  exact ⟨files, lines, moves, hrun, hstarts, hcount⟩

end BeamRestartCounts
