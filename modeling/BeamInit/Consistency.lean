import BeamInit.Refinement
import BeamInit.Ledger

/-! # Consistency — the invariant of the manager

    Between two events the table accounts for every unreaped main process, each
    service shows its subscribers the status it has, and after the shutdown
    every service is settled.  A lifecycle step hands a process over in one of
    three ways, and that is all the accounts need to know about it. -/

namespace BeamConsistency

open BeamApi BeamOs BeamLogs BeamPublisher BeamService BeamManager BeamMainLoop BeamLifecycle
open BeamOperations BeamRefinement Runs Ledger

/-! ## Effects on the children -/

def touchesChildren : Effect → Bool
  | .spawned .. | .reaped .. => true
  | _ => false

/-- Effects that touch no child leave the children as they are. -/
theorem foldl_quiet {out : List Effect} (h : Lacks touchesChildren out)
    (children : List ServiceProcess) :
    out.foldl trackChild children = children := by
  induction out generalizing children with
  | nil => rfl
  | cons e out ih =>
      obtain ⟨he, hout⟩ := List.forall_mem_cons.mp h
      have hsame : trackChild children e = children := by
        cases e with
        | spawned _ _ | reaped _ _ => exact nomatch he
        | _ => rfl
      rw [List.foldl_cons, hsame]
      exact ih hout children

/-- The children after more effects are tracked from those before. -/
theorem unreaped_append (trace out : List Effect) :
    unreaped (trace ++ out) = out.foldl trackChild (unreaped trace) := List.foldl_append

/-- An unreaped child was spawned at some point. -/
theorem spawned_of_unreaped {trace : List Effect} {child : ServiceProcess}
    (h : child ∈ unreaped trace) : ∃ name, .spawned name child ∈ trace := by
  induction trace using List.reverseRecOn with
  | nil => exact absurd h List.not_mem_nil
  | append_singleton trace e ih =>
      rw [unreaped_append] at h
      have hold : child ∈ unreaped trace → ∃ name, .spawned name child ∈ trace ++ [e] := by
        intro hmem
        obtain ⟨name, hname⟩ := ih hmem
        exact ⟨name, List.mem_append_left _ hname⟩
      cases e with
      | spawned name process =>
          rcases List.mem_cons.mp h with rfl | hmem
          · exact ⟨name, List.mem_append_right _ List.mem_cons_self⟩
          · exact hold hmem
      | reaped pid status => exact hold (List.mem_of_mem_filter h)
      | _ => exact hold h

/-- A signal touches no child of the list. -/
theorem quiet_sent (process : ServiceProcess) (sig : Int) :
    Lacks touchesChildren (sentEffects process sig) :=
  lacks_sent rfl rfl

/-- Making the sink of a service touches no child. -/
theorem quiet_sink {out : List Effect} (h : ∀ e ∈ out, isSink e = true) :
    Lacks touchesChildren out := by
  intro e hmem
  have := h e hmem
  cases e with
  | spawned _ _ | reaped _ _ => exact nomatch this
  | _ => rfl

/-- Nor does a kill or a grace timer. -/
theorem quiet_grace {name : String} {process : ServiceProcess} {period : Nat}
    {pendingKill : Option PendingKill} {out : List Effect}
    (h : Grace name process period pendingKill out) : Lacks touchesChildren out := by
  cases h with
  | now _ => exact quiet_sent process SIGKILL
  | timer _ => exact .cons rfl .nil

/-! ## Handovers -/

/-- Effects by which a service without a process gets one, or stays without. -/
inductive Gains (name : String) : List Effect → Option ServiceProcess → Prop where
  | nothing {out : List Effect} : Lacks touchesChildren out → Gains name out none
  | spawned {pre post : List Effect} {process : ServiceProcess} :
      Lacks touchesChildren pre → Lacks touchesChildren post →
      Gains name (pre ++ .spawned name process :: post) (some process)

/-- How a step passes from the process held before to the one held after. -/
inductive Handover (name : String) :
    List Effect → Option ServiceProcess → Option ServiceProcess → Prop where
  | same {out : List Effect} {held : Option ServiceProcess} : Lacks touchesChildren out →
      Handover name out held held
  | gained {out : List Effect} {held : Option ServiceProcess} : Gains name out held →
      Handover name out none held
  | reaped {out : List Effect} {process : ServiceProcess} {held : Option ServiceProcess}
      {status : StdExitStatus} : Gains name out held →
      Handover name (.reaped process.mainPid status :: out) (some process) held

/-- Effects that touch no child may come first. -/
theorem Gains.quiet_append {name : String} {out out' : List Effect} {held : Option ServiceProcess}
    (hquiet : Lacks touchesChildren out) (h : Gains name out' held) : Gains name (out ++ out') held := by
  cases h with
  | nothing h => exact .nothing (hquiet.append h)
  | spawned hpre hpost =>
      rw [← List.append_assoc]
      exact .spawned (hquiet.append hpre) hpost

/-- A start gains the process it spawns, or none. -/
theorem start_gains {name : String} {reason : StartReason} {s s' : Service}
    {probe : Option AbortHandle} {out : List Effect} (h : Start name reason s probe out s') :
    Gains name out s'.state.status.process? := by
  cases h with
  | running hu _ _ hsink =>
      rw [hu.status_eq]
      exact .spawned (.cons rfl (quiet_sink hsink)) (lacks_probe rfl)
  | failed hu hsink =>
      rw [hu.status_eq]
      exact .nothing ((Lacks.cons rfl (quiet_sink hsink)).append (.cons rfl .nil))
  | noPty hu =>
      rw [hu.status_eq]
      exact .nothing (.cons rfl .nil)

/-- The process an entry holds on to. -/
def heldBy (entry : Option Service) : Option ServiceProcess :=
  entry.bind (fun service => service.state.status.process?)

@[simp] theorem heldBy_some (s : Service) : heldBy (some s) = s.state.status.process? := rfl

/-- A service at rest holds no process. -/
theorem process?_of_isDead {status : ServiceStatus} (h : isDead status = true) :
    status.process? = none := by
  cases status with
  | running _ _ | frozen _ _ | stopping _ _ _ | dummy => exact nomatch h
  | stopped | exited _ | error _ => rfl

/-- **Every transition is a handover**, unless it strands a service. -/
theorem transition_handover {shutdown : Bool} {name : String} {action : Action}
    {entry entry' : Option Service} {out : List Effect}
    (h : Transition shutdown name action entry out entry')
    (hsettled : shutdown = true → ∀ s, entry = some s → isSettled s.state.status = true) :
    Handover name out (heldBy entry) (heldBy entry') := by
  have hprobe : ∀ task, Lacks touchesChildren (abortTask .probeAborted task) :=
    lacks_abort fun _ => rfl
  have htimer : ∀ task, Lacks touchesChildren (abortTask .timerAborted task) :=
    lacks_abort fun _ => rfl
  cases h with
  | create _ hs =>
      rw [heldBy_some, hs.status]
      exact .same .nil
  | start _ hdead hstart | restartDead _ hdead hstart =>
      rw [heldBy_some, process?_of_isDead hdead]
      exact .gained (start_gains hstart)
  | keep hu | stopDead _ hu =>
      rw [heldBy_some, heldBy_some, hu.status_eq]
      exact .same .nil
  | signal _ hout =>
      rcases hout with ⟨cmd, rfl⟩ | ⟨sig, rfl⟩
      · exact .same (.cons rfl .nil)
      · exact .same (quiet_sent _ sig)
  | freeze hst hu =>
      rw [heldBy_some, heldBy_some, hst, hu.status_eq]
      exact .same ((hprobe _).append (quiet_sent _ _))
  | thaw hst hu =>
      rw [heldBy_some, heldBy_some, hst, hu.status_eq]
      exact .same ((quiet_sent _ _).append (lacks_probe rfl))
  | pruneDead hdead =>
      rw [heldBy_some, process?_of_isDead hdead]
      exact .same (lacks_dropped (fun _ => rfl) _)
  | merge _ hst hu =>
      rw [heldBy_some, heldBy_some, hst, hu.status_eq]
      exact .same .nil
  | terminateFrozen _ hst hu =>
      rw [heldBy_some, heldBy_some, hst, hu.status_eq]
      exact .same (quiet_sent _ _)
  | terminateRunning _ hst hgrace hu =>
      rw [heldBy_some, heldBy_some, hst, hu.status_eq]
      exact .same (((hprobe _).append (quiet_sent _ _)).append (quiet_grace hgrace))
  | @exited s _ process _ _ hst hu =>
      have hheld : s.state.status.process? = some process := by
        rcases hst with hst | hst <;> rw [hst] <;> rfl
      rw [heldBy_some, heldBy_some, hheld, hu.status_eq]
      exact .reaped (.nothing (hprobe _))
  | stopped hst hu =>
      rw [heldBy_some, heldBy_some, hst, hu.status_eq]
      exact .reaped (.nothing ((htimer _).append (hprobe _)))
  | pruned hst =>
      rw [heldBy_some, hst]
      exact .reaped (.nothing (((htimer _).append (hprobe _)).append (lacks_dropped (fun _ => rfl) _)))
  | restarted _ hst hstart =>
      rw [heldBy_some, hst, List.cons_append]
      exact .reaped ((start_gains hstart).quiet_append ((htimer _).append (hprobe _)))
  | stranded hshut hst _ _ =>
      -- a settled service has no restart pending
      have := hsettled hshut _ rfl
      rw [hst] at this
      exact nomatch this
  | log hs => exact hs ▸ .same .nil

/-- A reaped child is the process of the entry that changes. -/
theorem transition_reap {shutdown : Bool} {name : String} {pid : Pid}
    {entry entry' : Option Service} {out : List Effect}
    (h : Transition shutdown name (.reap pid) entry out entry') :
    ∃ process, heldBy entry = some process ∧ process.mainPid = pid := by
  cases h with
  | @exited s _ process _ _ hst _ =>
      refine ⟨process, ?_, rfl⟩
      rcases hst with hst | hst <;> rw [heldBy_some, hst] <;> rfl
  | @stopped s _ process _ _ hst _ => exact ⟨process, by rw [heldBy_some, hst]; rfl, rfl⟩
  | @pruned s process _ _ hst => exact ⟨process, by rw [heldBy_some, hst]; rfl, rfl⟩
  | @restarted s _ process _ _ _ _ _ hst _ => exact ⟨process, by rw [heldBy_some, hst]; rfl, rfl⟩
  | @stranded s _ process _ _ _ _ hst _ _ => exact ⟨process, by rw [heldBy_some, hst]; rfl, rfl⟩

/-! ## The invariant -/

/-- The main process of each service of the table. -/
def holder (m : Machine) (name : String) : Option ServiceProcess := heldBy (m.get? name)

structure Consistent (m : Machine) : Prop where
  accounts : Accounts ServiceProcess.mainPid (unreaped m.trace) (holder m)
  shown : ∀ name s, m.get? name = some s →
    s.state.status.toApi = .ok s.state.serviceStatusPublisher.latest
  settled : m.mgr.shutdown = true → ∀ name s, m.get? name = some s →
    isSettled s.state.status = true

/-- Writing an entry changes what this name holds, and no other. -/
theorem holder_write {m : Machine} {name : String} {entry : Option Service} {out : List Effect} :
    holder (write m name entry out) = Function.update (holder m) name (heldBy entry) := by
  funext other
  unfold holder
  rw [get?_write, Function.update_apply]
  by_cases h : name = other
  · rw [if_pos h, if_pos h.symm]
  · rw [if_neg h, if_neg (Ne.symm h)]

/-- The empty table is consistent. -/
theorem consistent_new (files : List String) (lines : NonZeroUsize) :
    Consistent (newMachine files lines) where
  accounts := .empty
  shown _ _ h := nomatch h
  settled h := nomatch h

/-- Issuing the process a `Gains` describes, from accounts that leave the name free. -/
theorem accounts_gains {name : String} {trace out : List Effect} {held : Option ServiceProcess}
    {table : String → Option ServiceProcess} (hgains : Gains name out held)
    (hfresh : SpawnsFresh (trace ++ out)) (hfree : table name = none)
    (h : Accounts ServiceProcess.mainPid (unreaped trace) table) :
    Accounts ServiceProcess.mainPid (unreaped (trace ++ out)) (Function.update table name held) := by
  rw [unreaped_append]
  cases hgains with
  | nothing hquiet =>
      rw [foldl_quiet hquiet, ← hfree, Function.update_eq_self]
      exact h
  | @spawned pre post process hpre hpost =>
      obtain ⟨-, hpids, -⟩ := hfresh (trace ++ pre) (.spawned name process) post
        (by rw [List.append_assoc]) process rfl
      rw [unreaped_append, foldl_quiet hpre] at hpids
      rw [List.foldl_append, foldl_quiet hpre, List.foldl_cons, foldl_quiet hpost]
      exact h.issue hfree hpids

/-- The accounts are kept by a handover. -/
theorem accounts_handover {m : Machine} {name : String} {entry : Option Service}
    {out : List Effect} (hhand : Handover name out (holder m name) (heldBy entry))
    (hfresh : SpawnsFresh (m.trace ++ out))
    (h : Accounts ServiceProcess.mainPid (unreaped m.trace) (holder m)) :
    Accounts ServiceProcess.mainPid (unreaped (m.trace ++ out))
      (Function.update (holder m) name (heldBy entry)) := by
  generalize hold : holder m name = old at hhand
  generalize heldBy entry = held at hhand
  cases hhand with
  | same hquiet =>
      rw [unreaped_append, foldl_quiet hquiet, ← hold, Function.update_eq_self]
      exact h
  | gained hgains => exact accounts_gains hgains hfresh hold h
  | @reaped out process _ status hgains =>
      -- first give the reaped process back, then issue the new one
      have hsettle := h.settle hold
      rw [List.append_cons] at hfresh ⊢
      have hreaped : unreaped (m.trace ++ [.reaped process.mainPid status])
          = (unreaped m.trace).filter (fun other => other.mainPid ≠ process.mainPid) :=
        unreaped_append _ _
      have hgain := accounts_gains hgains hfresh (Function.update_self ..) (hreaped ▸ hsettle)
      rwa [Function.update_idem] at hgain

/-- An update publishes the status it sets. -/
theorem update_shown {s s' : Service} {status : ServiceStatus} {probe : Option AbortHandle}
    {attempts : Nat} (h : Update s s' status probe attempts) :
    s'.state.status.toApi = .ok s'.state.serviceStatusPublisher.latest := by
  obtain ⟨api, hapi, hpub⟩ := h.published
  rw [h.status_eq, hpub, ServiceStatusPublisher.publish_latest, hapi]

/-- So does a start, whether it succeeds or not. -/
theorem start_shown {name : String} {reason : StartReason} {s s' : Service}
    {probe : Option AbortHandle} {out : List Effect} (h : Start name reason s probe out s') :
    s'.state.status.toApi = .ok s'.state.serviceStatusPublisher.latest := by
  cases h with
  | running hu _ _ _ => exact update_shown hu
  | failed hu _ => exact update_shown hu
  | noPty hu => exact update_shown hu

/-- A step leaves every entry with a published status and, during a shutdown, settled. -/
theorem transition_shown {shutdown : Bool} {name : String} {action : Action}
    {entry : Option Service} {s' : Service} {out : List Effect}
    (h : Transition shutdown name action entry out (some s'))
    (hsettled : shutdown = true → ∀ s, entry = some s → isSettled s.state.status = true)
    (hshown : ∀ s, entry = some s →
      s.state.status.toApi = .ok s.state.serviceStatusPublisher.latest) :
    s'.state.status.toApi = .ok s'.state.serviceStatusPublisher.latest := by
  cases h with
  | create _ hs =>
      rw [hs.status, hs.published]
      rfl
  | start _ _ hstart | restartDead _ _ hstart | restarted _ _ hstart => exact start_shown hstart
  | keep hu | stopDead _ hu | freeze _ hu | thaw _ hu | merge _ _ hu | terminateFrozen _ _ hu
  | terminateRunning _ _ _ hu | exited _ hu | stopped _ hu => exact update_shown hu
  | signal _ _ => exact hshown s' rfl
  | stranded hshut hst _ _ =>
      have := hsettled hshut _ rfl
      rw [hst] at this
      exact nomatch this
  | @log s _ line hs => rw [hs]; exact hshown s rfl

/-- Merging a request that is no restart gives none. -/
theorem merge_isRestart (afterStop : AfterStop) {request : AfterStop}
    (h : request.isRestart = false) : (afterStop.merge request).isRestart = false := by
  cases request with
  | stop | prune => cases afterStop <;> rfl
  | restart reason => exact nomatch h

/-- A service at rest is settled. -/
theorem isSettled_of_isDead {status : ServiceStatus} (h : isDead status = true) :
    isSettled status = true := by
  cases status with
  | running _ _ | frozen _ _ | stopping _ _ _ | dummy => exact nomatch h
  | stopped | exited _ | error _ => rfl

/-- Once the flag is up, a step keeps a settled service settled. -/
theorem transition_settled {name : String} {action : Action} {entry : Option Service}
    {s' : Service} {out : List Effect} (h : Transition true name action entry out (some s'))
    (hsettled : ∀ s, entry = some s → isSettled s.state.status = true) :
    isSettled s'.state.status = true := by
  cases h with
  | create hshut _ | start hshut _ _ | restartDead hshut _ _ | restarted hshut _ _ =>
      exact nomatch hshut
  | keep hu => rw [hu.status_eq]; exact hsettled _ rfl
  | stopDead hdead hu => rw [hu.status_eq]; exact isSettled_of_isDead hdead
  | signal _ _ => exact hsettled _ rfl
  | freeze hst _ | thaw hst _ | terminateFrozen _ hst _ | terminateRunning _ hst _ _
  | stranded _ hst _ _ =>
      have := hsettled _ rfl
      rw [hst] at this
      exact nomatch this
  | @merge _ _ process afterStop request _ hrequest _ hu =>
      rw [hu.status_eq]
      have : request.isRestart = false := Bool.eq_false_iff.mpr fun hr => nomatch hrequest hr
      show (!(afterStop.merge request).isRestart) = true
      rw [merge_isRestart afterStop this]
      rfl
  | exited _ hu | stopped _ hu => rw [hu.status_eq]; rfl
  | @log s _ line hs => rw [hs]; exact hsettled s rfl

/-- The step lemma of the invariant. -/
theorem consistent_step {m m' : Machine} {label : Label} (hfresh : SpawnsFresh m'.trace)
    (hm : Consistent m) (h : Lifecycle m label m') : Consistent m' := by
  cases h with
  | @act name action out entry ht =>
      have hentry : m.mgr.shutdown = true → ∀ s, m.get? name = some s →
          isSettled s.state.status = true := fun hshut => hm.settled hshut name
      rw [write_trace] at hfresh
      refine ⟨?_, fun other s hget => ?_, fun hshut other s hget => ?_⟩
      · rw [write_trace, holder_write]
        exact accounts_handover (transition_handover ht hentry) hfresh hm.accounts
      · rw [get?_write] at hget
        by_cases hname : name = other
        · rw [if_pos hname] at hget
          exact transition_shown (hget ▸ ht) hentry (hm.shown name)
        · rw [if_neg hname] at hget
          exact hm.shown other s hget
      · rw [write_shutdown] at hshut
        rw [get?_write] at hget
        by_cases hname : name = other
        · rw [if_pos hname] at hget
          rw [hshut] at ht
          exact transition_settled (hget ▸ ht) (hentry hshut)
        · rw [if_neg hname] at hget
          exact hm.settled hshut other s hget
  | @foreign pid status hforeign =>
      refine ⟨?_, hm.shown, hm.settled⟩
      have hdrop : unreaped (m.trace ++ [.reaped pid status]) = unreaped m.trace := by
        rw [unreaped_append]
        refine hm.accounts.filter_foreign fun name process hheld => ?_
        obtain ⟨s, hget, hp⟩ := Option.bind_eq_some_iff.mp hheld
        exact hforeign name s process hget hp
      show Accounts _ (unreaped (m.trace ++ [.reaped pid status])) _
      rw [hdrop]
      exact hm.accounts
  | shutdown _ hsettled => exact ⟨hm.accounts, hm.shown, fun _ => hsettled⟩

/-- **Every state between two events is consistent.** -/
theorem reachable_consistent {m : Machine} (h : Reachable m) : Consistent m :=
  (reachable_invariant consistent_new consistent_step h).2

/-- In a reachable state every spawn of the trace was fresh. -/
theorem reachable_fresh {m : Machine} (h : Reachable m) : SpawnsFresh m.trace :=
  (reachable_invariant consistent_new consistent_step h).1

/-- A step from a reachable state leads to a reachable one. -/
theorem reachable_snoc {m m' : Machine} {move : Move} (h : Reachable m) (hmove : Step m move m') :
    Reachable m' := by
  obtain ⟨files, lines, moves, hrun⟩ := h
  exact ⟨files, lines, _, hrun.snoc hmove⟩

/-- So does a run. -/
theorem reachable_run {m m' : Machine} {moves : List Move} (h : Reachable m)
    (hrun : Run Step m moves m') : Reachable m' := by
  obtain ⟨files, lines, before, hbefore⟩ := h
  exact ⟨files, lines, _, hbefore.append hrun⟩

/-! ## A small manager -/

/-- A service with a grace period of ten seconds. -/
def webService : CreateService where
  cmd := "/bin/web"
  args := []
  env := ∅
  liveness := some ⟨"/health", 80, 3, 0, 1, 1⟩
  pty := false
  labels := ∅
  gracefulTerminationPeriod := 10

def fiveLines : NonZeroUsize := ⟨5, by decide⟩

/-- Where the loop stands after these events, from an empty manager. -/
def machineAfter (events : List (Os × Event)) : Machine :=
  match runLoop (newMachine [] fiveLines) events with
  | .ok m => m
  | .error _ => newMachine [] fiveLines

/-- The executable loop leads to reachable states, if its spawns are fresh. -/
theorem machineAfter_reachable {events : List (Os × Event)}
    (h : (runLoop (newMachine [] fiveLines) events).toOption.isSome = true)
    (hfresh : SpawnsFresh (machineAfter events).trace) : Reachable (machineAfter events) := by
  rw [machineAfter] at hfresh ⊢
  cases hrun : runLoop (newMachine [] fiveLines) events with
  | error e => rw [hrun] at h; exact nomatch h
  | ok m =>
      rw [hrun] at hfresh
      exact reachable_of_runLoop hrun hfresh

/-- The user 1000 creates `web`, which runs as process 100. -/
def createWeb : Os × Event :=
  (steadyOs 100 0 [], .command (.createService "web" webService) ⟨1000, 1000⟩)

/-- The same user stops it. -/
def stopWeb : Os × Event := (steadyOs 0 1 [], .command (.stopService "web" false) ⟨1000, 1000⟩)

def terminateAll : Os × Event := (steadyOs 0 0 [], .signal SIGTERM)

/-- The process `pid` exits with code 0. -/
def exitOf (pid : Pid) : Os × Event :=
  (steadyOs 0 0 [⟨pid, ⟨0⟩, (steadyOs (pid + 1) 1 []).start⟩], .signal SIGCHLD)

theorem createWeb_reachable : Reachable (machineAfter [createWeb]) :=
  machineAfter_reachable (by decide +kernel) (by decide +kernel)

end BeamConsistency
