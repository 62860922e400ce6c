import BeamInit.Supervision

/-! # When the monitor exits — and what beam-init then knows

    To beam-init the monitor is the main process of the service: it reaps the
    monitor and takes the service for gone.  The loop is meant to end with the
    service only, but every system call in it is under `expect_no_panic`, and the
    calls on the process group fail once no process is left in the group, or the
    group is in another session, which a service that moves brings about while it
    runs. -/

namespace BeamMonitorExits

open BeamApi BeamOs BeamService BeamManager BeamMainLoop BeamLifecycle BeamRefinement BeamConsistency
open BeamChannel BeamNetwork BeamMonitorLoop BeamMonitorProtocol BeamSupervision Runs
open ProcessTable (Process)

/-! ## After the monitor -/

/-- Nothing is waited for any more once the monitor has exited. -/
theorem over_step {w w' : Session} {move : SessionMove} (h : SessionStep w move w')
    (hover : w.Over) : w'.Over ∧ w'.waited = w.waited ∧ w'.servicePid = w.servicePid := by
  cases h with
  | wrote _ _ hrun _ _ | killed hrun => exact absurd hover hrun
  | brokenPipe _ _ _ _ | failed _ _ _ | returned _ _ | endOfFile _ _ _ | dropped _
  | childExited _ _ | regrouped _ => exact ⟨hover, rfl, rfl⟩
  | polled hp _ | read hp _ _ _ | undecodable hp _ _ _ | noCommand hp _ | called hp _
  | callFailed hp _ | acked hp _ | ackFailed hp _ | hungUp hp | signalled hp _ | noSignal hp _
  | waited hp _ | nobody hp _ _ | noChild hp _ _ =>
      exact absurd hover (not_over_of_phase hp (fun _ => Phase.noConfusion) Phase.noConfusion)

/-- The same for a run. -/
theorem over_run {w w' : Session} {moves : List SessionMove} (h : Run SessionStep w moves w')
    (hover : w.Over) : w'.Over ∧ w'.waited = w.waited ∧ w'.servicePid = w.servicePid := by
  induction h with
  | nil _ => exact ⟨hover, rfl, rfl⟩
  | cons hstep _ ih =>
      obtain ⟨hover', hwaited, hpid⟩ := over_step hstep hover
      obtain ⟨hover'', hwaited', hpid'⟩ := ih hover'
      exact ⟨hover'', hwaited'.trans hwaited, hpid'.trans hpid⟩

/-! ## The process table -/

structure Tabled (w : Session) : Prop where
  admits : w.Admits w.processes
  /-- The monitor is no child of its own. -/
  children : ∀ zombie ∈ w.zombies, zombie.1 ≠ w.monitorPid
  positive : 0 < w.servicePid

/-- At first the table has the monitor and the service, in one session. -/
theorem tabled_start {monitorPid servicePid : Pid} (hne : monitorPid ≠ servicePid)
    (hpos : 0 < servicePid) : Tabled (.start monitorPid servicePid) where
  admits := ⟨start_coherent monitorPid servicePid, fun _ => (start_table hne).1, fun _ _ => by
    show (Session.start monitorPid servicePid).processes[servicePid]?.map _ = _
    rw [(start_table hne).2]
    rfl⟩
  children _ h := absurd h List.not_mem_nil
  positive := hpos

/-- What a step may touch of all this. -/
def placed (w : Session) :=
  (w.processes, w.monitorPid, w.servicePid, w.zombies, w.live, w.waited)

theorem Tabled.keep {w w' : Session} (h : Tabled w) (hplaced : placed w' = placed w)
    (hover : w.Over → w'.Over) : Tabled w' := by
  simp only [placed, Prod.mk.injEq] at hplaced
  obtain ⟨hprocesses, hmonitor, hservice, hzombies, hlive, hwaited⟩ := hplaced
  refine ⟨⟨?_, fun hrun => ?_, fun hrun => ?_⟩, ?_, ?_⟩
  · rw [hprocesses]
    exact h.admits.coherent
  · rw [hprocesses, hmonitor]
    exact h.admits.monitor fun ho => hrun (hover ho)
  · rw [hprocesses, hservice, hwaited, hlive]
    exact h.admits.service fun ho => hrun (hover ho)
  · rw [hzombies, hmonitor]
    exact h.children
  · rw [hservice]
    exact h.positive

/-- A process that terminates stays in its place. -/
theorem tabled_childExited {w : Session} {pid : Pid} {status : StdExitStatus} (h : Tabled w)
    (hpid : pid ≠ w.monitorPid) :
    Tabled { w with
      processes := ProcessTable.terminate w.processes pid
      zombies := w.zombies ++ [(pid, status)], sigchld := true
      live := w.live && decide (pid ≠ w.servicePid) } := by
  refine ⟨⟨h.admits.coherent.terminate pid, fun hrun => ?_, fun hrun hnot => ?_⟩, ?_, h.positive⟩
  · show (ProcessTable.terminate w.processes pid)[w.monitorPid]? = _
    rw [ProcessTable.getElem?_terminate, if_neg hpid]
    exact h.admits.monitor hrun
  · have hkept := h.admits.service hrun hnot
    show (ProcessTable.terminate w.processes pid)[w.servicePid]?.map Process.zombie
      = some (!(w.live && decide (pid ≠ w.servicePid)))
    rw [ProcessTable.getElem?_terminate]
    by_cases hservice : pid = w.servicePid
    · rw [if_pos hservice, decide_eq_false (not_not_intro hservice), Bool.and_false, Option.map_map,
        hservice]
      obtain ⟨process, hget, -⟩ := Option.map_eq_some_iff.mp hkept
      rw [hget]
      rfl
    · rw [if_neg hservice, decide_eq_true hservice, Bool.and_true]
      exact hkept
  · intro zombie hmem
    rcases List.mem_append.mp hmem with hold | hnew
    · exact h.children zombie hold
    · rw [List.mem_singleton.mp hnew]
      exact hpid

/-- Waiting for a child takes only this child out of the table. -/
theorem tabled_waited {w : Session} {pid : Pid} {status : StdExitStatus} {phase : Phase}
    (h : Tabled w) (hmem : (pid, status) ∈ w.zombies) (hrunning : ¬ w.Over) :
    Tabled { w with
      phase := phase
      processes := w.processes.erase pid
      zombies := w.zombies.erase (pid, status)
      waited := w.waited ++ [pid] } := by
  have hkept : ∀ other : Pid, pid ≠ other → (w.processes.erase pid)[other]? = w.processes[other]? := by
    intro other hne
    rw [Std.ExtTreeMap.getElem?_erase]
    simp [hne]
  refine ⟨⟨h.admits.coherent.erase pid, fun _ => ?_, fun _ hnot => ?_⟩,
    fun zombie hz => h.children zombie (List.mem_of_mem_erase hz), h.positive⟩
  · show (w.processes.erase pid)[w.monitorPid]? = _
    rw [hkept _ (h.children _ hmem)]
    exact h.admits.monitor hrunning
  · obtain ⟨hbefore, hne⟩ := not_or.mp (fun hor => hnot (List.mem_append.mpr hor))
    show (w.processes.erase pid)[w.servicePid]?.map Process.zombie = _
    rw [hkept _ fun heq => hne (List.mem_singleton.mpr heq.symm)]
    exact h.admits.service hrunning hbefore

/-- Whatever the processes do, the kernel's table stays as the kernel keeps it. -/
theorem tabled_step {w w' : Session} {move : SessionMove} (h : Tabled w)
    (hstep : SessionStep w move w') : Tabled w' := by
  have hover : w.Over → w'.Over := fun ho => (over_step hstep ho).1
  cases hstep with
  | regrouped hadmits =>
      exact ⟨⟨hadmits.coherent, hadmits.monitor, hadmits.service⟩, h.children, h.positive⟩
  | childExited hpid _ => exact tabled_childExited h hpid
  | waited hphase hmem =>
      exact tabled_waited h hmem
        (not_over_of_phase hphase (fun _ => Phase.noConfusion) Phase.noConfusion)
  | brokenPipe _ _ _ _ | failed _ _ _ => exact h
  | _ => exact h.keep rfl hover

/-! ## The sessions whose calls find the group -/

/-- Nobody else kills the monitor. -/
def Inside (move : SessionMove) : Prop := ∀ signal, move ≠ .killed signal

/-- What a call of a command arm is for is there: for `killpg` a process in the group
    of the service, zombies included; for `tcsetpgrp(service_pid)` that group in the
    monitor's session or, if no process is in it, the process `service_pid` there. -/
def Finds (w : Session) : Syscall → Prop
  | .killpg _ => ∃ (pid : Pid) (process : Process), w.processes[pid]? = some process
      ∧ process.group = w.servicePid
  | .tcsetpgrp .service =>
      (∃ (pid : Pid) (process : Process), w.processes[pid]? = some process
        ∧ process.group = w.servicePid ∧ process.session = w.monitorPid)
      ∨ (∀ (pid : Pid) process, w.processes[pid]? = some process → process.group ≠ w.servicePid)
        ∧ ∃ process, w.processes[w.servicePid]? = some process ∧ process.session = w.monitorPid
  | .tcsetpgrp .monitor => True

/-- Every call of a command arm is made while what it is for is there. -/
def Found (w : Session) (move : SessionMove) (_ : Session) : Prop :=
  ∀ call, move = .called call ∨ move = .callFailed call → Finds w call

/-- **Groups and sessions** decide whether a call succeeds. -/
theorem succeeds_iff {w : Session} (h : Tabled w) (hrun : ¬ w.Over) (call : Syscall) :
    w.succeeds call = true ↔ Finds w call := by
  rw [Session.succeeds]
  cases call with
  | killpg signal =>
      rw [Syscall.perform, ProcessTable.kill_group _ h.positive, Finds]
      by_cases hempty : ProcessTable.members w.processes w.servicePid = []
      · rw [if_pos hempty]
        refine iff_of_false (fun hsome => by cases hsome) ?_
        rintro ⟨pid, process, hget, hgroup⟩
        exact ProcessTable.members_eq_nil.mp hempty pid process hget hgroup
      · rw [if_neg hempty]
        obtain ⟨pid, hpid⟩ := List.exists_mem_of_ne_nil _ hempty
        exact iff_of_true rfl ⟨pid, ProcessTable.mem_members.mp hpid⟩
  | tcsetpgrp leader =>
      have hok : ∀ result : Except Int Unit,
          (result.map (fun () => ([] : List Pid))).toOption.isSome = true ↔ result = .ok () := by
        intro result
        cases result with
        | error e => exact iff_of_false (fun hsome => by cases hsome) fun heq => by cases heq
        | ok u => exact iff_of_true rfl rfl
      cases leader with
      | service =>
          rw [Syscall.perform, hok, ProcessTable.tcsetpgrp_eq_ok,
            ProcessTable.sessionOf_iff h.admits.coherent, ProcessTable.members_eq_nil, Finds]
      | monitor =>
          rw [Syscall.perform, hok, ProcessTable.tcsetpgrp_eq_ok, Finds]
          exact iff_of_true
            (ProcessTable.sessionOf_member h.admits.coherent (h.admits.monitor hrun) rfl) trivial

/-- The service's own process has terminated and the monitor has waited for it. -/
def ServiceGone (w : Session) : Prop := w.servicePid ∈ w.waited ∧ w.live = false

structure Guarded (w : Session) : Prop where
  inStep : InStep w
  tabled : Tabled w
  dropped : w.dropped = true → w.caller = none
  zombie : ∀ status, (w.servicePid, status) ∈ w.zombies → w.live = false
  waited : w.servicePid ∈ w.waited → w.Over
  gone : w.Over → ServiceGone w

/-- At first the service runs. -/
theorem guarded_start {monitorPid servicePid : Pid} (hne : monitorPid ≠ servicePid)
    (hpos : 0 < servicePid) : Guarded (.start monitorPid servicePid) where
  inStep := inStep_start monitorPid servicePid
  tabled := tabled_start hne hpos
  dropped h := nomatch h
  zombie _ h := nomatch h
  waited h := nomatch h
  gone h := by
    rcases h with ⟨exit, h⟩ | h
    · exact nomatch h
    · exact nomatch h

/-- What a step may touch of all this. -/
def ledger (w : Session) := (w.servicePid, w.zombies, w.waited, w.live)

theorem Guarded.keep {w w' : Session} (h : Guarded w) (hin : InStep w') (htabled : Tabled w')
    (hledger : ledger w' = ledger w) (hdropped : w'.dropped = true → w'.caller = none)
    (hover : w'.Over ↔ w.Over) : Guarded w' := by
  simp only [ledger, Prod.mk.injEq] at hledger
  obtain ⟨hpid, hzombies, hwaited, hlive⟩ := hledger
  refine ⟨hin, htabled, hdropped, ?_, ?_, fun ho => ?_⟩
  · rw [hpid, hzombies, hlive]
    exact h.zombie
  · rw [hpid, hwaited]
    exact fun hmem => hover.mpr (h.waited hmem)
  · rw [ServiceGone]
    rw [hpid, hwaited, hlive]
    exact h.gone (hover.mp ho)

/-- **The step lemma**: while every call finds what it is for, the monitor ends with
    the service only. -/
theorem guarded_step {w w' : Session} {move : SessionMove} (h : Guarded w)
    (hstep : SessionStep w move w') (hinside : Inside move) (hfound : Found w move w') :
    Guarded w' := by
  have hin := inStep_step h.inStep hstep
  have htabled := tabled_step h.tabled hstep
  -- the steps of a monitor that runs before and after
  have hruns : ∀ {w' : Session}, InStep w' → (∀ exit, w'.phase ≠ .exited exit) → ¬ w.Over →
      (w'.Over ↔ w.Over) := fun hin' hexited hrun =>
    ⟨fun ho => absurd ho (not_over hexited hin'.decoded), fun ho => absurd ho hrun⟩
  cases hstep with
  | wrote _ hopen _ _ _ =>
      exact h.keep hin htabled rfl (fun hd => nomatch hopen.symm.trans hd) Iff.rfl
  | brokenPipe _ _ _ _ | failed _ _ _ => exact h
  | returned _ _ | endOfFile _ _ _ => exact h.keep hin htabled rfl (fun _ => rfl) Iff.rfl
  | dropped hcaller => exact h.keep hin htabled rfl (fun _ => hcaller) Iff.rfl
  | polled hphase _ | read hphase _ _ _ | noCommand hphase _ | called hphase _ | acked hphase _
  | hungUp hphase | signalled hphase _ | noSignal hphase _ | nobody hphase _ _ =>
      exact h.keep hin htabled rfl h.dropped (hruns hin (fun _ => Phase.noConfusion)
        (h.inStep.runs hphase fun _ => Phase.noConfusion))
  | undecodable _ _ _ _ => exact absurd rfl hin.decoded
  | callFailed hphase hfails =>
      have hrun : ¬ w.Over := h.inStep.runs hphase fun _ => Phase.noConfusion
      exact nomatch hfails.symm.trans ((succeeds_iff h.tabled hrun _).mpr (hfound _ (Or.inr rfl)))
  | ackFailed hphase hdropped =>
      exact absurd (h.dropped hdropped) (h.inStep.caller_of_executing hphase)
  | noChild hphase _ hmem =>
      exact absurd (h.waited hmem) (h.inStep.runs hphase fun _ => Phase.noConfusion)
  | killed _ => exact absurd rfl (hinside _)
  | regrouped _ => exact h.keep hin htabled rfl h.dropped Iff.rfl
  | @childExited pid status _ _ =>
      have hlive : w.live = false → (w.live && decide (pid ≠ w.servicePid)) = false := by
        intro hdead
        rw [hdead, Bool.false_and]
      refine ⟨hin, htabled, h.dropped, fun status' hmem => ?_, h.waited, fun ho => ?_⟩
      · rcases List.mem_append.mp hmem with hold | hnew
        · exact hlive (h.zombie status' hold)
        · obtain ⟨hpid, -⟩ := Prod.mk.inj (List.mem_singleton.mp hnew)
          show (w.live && decide (pid ≠ w.servicePid)) = false
          rw [← hpid, decide_eq_false (not_not_intro rfl), Bool.and_false]
      · exact ⟨(h.gone ho).1, hlive (h.gone ho).2⟩
  | @waited pid status hphase hmem =>
      have hrun : ¬ w.Over := h.inStep.runs hphase fun _ => Phase.noConfusion
      have hzombie : ∀ status', (w.servicePid, status') ∈ w.zombies.erase (pid, status) →
          w.live = false := fun status' hz => h.zombie status' (List.mem_of_mem_erase hz)
      by_cases hpid : pid ≠ w.servicePid
      · have hphase' : ¬ Session.Over { w with
            phase := if pid ≠ w.servicePid then .waiting else .exited (exitLike status)
            processes := w.processes.erase pid
            zombies := w.zombies.erase (pid, status)
            waited := w.waited ++ [pid] } :=
          not_over (by dsimp only; rw [if_pos hpid]; exact fun _ => Phase.noConfusion) hin.decoded
        refine ⟨hin, htabled, h.dropped, hzombie, fun hw => ?_, fun ho => absurd ho hphase'⟩
        rcases List.mem_append.mp hw with hold | hnew
        · exact absurd (h.waited hold) hrun
        · exact absurd (List.mem_singleton.mp hnew).symm hpid
      · obtain rfl := not_not.mp hpid
        refine ⟨hin, htabled, h.dropped, hzombie, fun _ => Or.inl ⟨exitLike status, if_neg hpid⟩,
          fun _ => ?_⟩
        exact ⟨List.mem_append_right _ List.mem_cons_self, h.zombie status hmem⟩

/-- **The monitor ends with the service only**, in every run whose calls find what they are
    for. -/
theorem guarded_run {w w' : Session} {moves : List SessionMove} (h : Guarded w)
    (hrun : Run (Where SessionStep Found) w moves w') (hinside : ∀ move ∈ moves, Inside move) :
    Guarded w' :=
  hrun.invariant_of (fun hin hg hstep => guarded_step hg hstep.1 hin hstep.2) hinside h

/-! ## A monitor that exits too early -/

/-- A call that does not find what it is for ends the monitor before the service. -/
theorem early_exit {w w' : Session} {move : SessionMove} (h : Guarded w)
    (hstep : SessionStep w move w') (hlost : ¬ Found w move w') :
    w'.Over ∧ w'.servicePid ∉ w'.waited := by
  simp only [Found, not_forall] at hlost
  obtain ⟨call, hmove, hnot⟩ := hlost
  rcases hmove with rfl | rfl
  · cases hstep with
    | called hphase hok =>
        have hrun : ¬ w.Over := h.inStep.runs hphase fun _ => Phase.noConfusion
        exact absurd ((succeeds_iff h.tabled hrun call).mp hok) hnot
  · cases hstep with
    | callFailed hphase _ =>
        refine ⟨Or.inl ⟨_, rfl⟩, fun hmem => ?_⟩
        exact h.inStep.runs hphase (fun _ => Phase.noConfusion) (h.waited hmem)

/-- Either every call finds what it is for, or the monitor has exited too early. -/
theorem found_or_early {w w' : Session} {moves : List SessionMove} (h : Guarded w)
    (hrun : Run SessionStep w moves w') (hinside : ∀ move ∈ moves, Inside move) :
    Run (Where SessionStep Found) w moves w' ∨ w'.Over ∧ w'.servicePid ∉ w'.waited := by
  induction hrun with
  | nil w => exact Or.inl (.nil w)
  | @cons w w₁ w' move moves hstep hrest ih =>
      obtain ⟨hin, hinside⟩ := List.forall_mem_cons.mp hinside
      by_cases hfound : Found w move w₁
      · rcases ih (guarded_step h hstep hin hfound) hinside with hmet | hearly
        · exact Or.inl (.cons ⟨hstep, hfound⟩ hmet)
        · exact Or.inr hearly
      · obtain ⟨hover, hnot⟩ := early_exit h hstep hfound
        obtain ⟨hover', hwaited, hpid⟩ := over_run hrest hover
        exact Or.inr ⟨hover', by rw [hwaited, hpid]; exact hnot⟩

/-! ## beam-init reaps the monitor -/

/-- beam-init reaps only a monitor that has exited. -/
theorem over_of_reaped {process : ServiceProcess} {pair pair' : Pair} {labels : List PairLabel}
    (h : Run (PairStep (Where SessionStep Found) process) pair labels pair')
    (hreaped : ∃ status, .reaped process.mainPid status ∈ newEffects pair.machine pair'.machine) :
    pair'.session.Over := by
  induction h with
  | nil pair =>
      obtain ⟨status, hmem⟩ := hreaped
      exact absurd hmem (not_mem_newEffects_self _ _)
  | cons hstep hrest ih =>
      cases hstep with
      | session _ _ => exact ih hreaped
      | main hmove _ _ _ _ hover =>
          obtain ⟨moves, hlater⟩ := machine_run hrest
          obtain ⟨status, hmem⟩ := hreaped
          rw [newEffects_trans (step_trace hmove) (steps_trace hlater)] at hmem
          rcases List.mem_append.mp hmem with hnow | hlater
          · exact (over_run (session_run hrest).of_where (hover ⟨status, hnow⟩)).1
          · exact ih ⟨status, hlater⟩

/-- **HEADLINE.** A monitor that nobody kills exits after its service exactly when
    every call of its command arms found what it is for, as the process groups and
    sessions then were; and a process that beam-init no longer has in any service
    has terminated. -/
theorem monitor_waits_for_service {monitorPid servicePid : Pid} (hne : monitorPid ≠ servicePid)
    (hpos : 0 < servicePid) {w : Session} {moves : List SessionMove}
    (hrun : Run SessionStep (.start monitorPid servicePid) moves w)
    (hinside : ∀ move ∈ moves, Inside move) :
    (Run (Where SessionStep Found) (.start monitorPid servicePid) moves w
        ↔ (w.Over → ServiceGone w))
      ∧ ∀ m₀ name process labels pair, Reachable m₀ → holder m₀ name = some process →
        Run (PairStep (Where SessionStep Found) process) ⟨m₀, .start monitorPid servicePid⟩ labels pair →
        (∀ move ∈ labels.flatMap Prod.snd, Inside move) →
        (∀ other, holder pair.machine other ≠ some process) → ServiceGone pair.session := by
  have hstart := guarded_start hne hpos
  refine ⟨⟨fun hmet => (guarded_run hstart hmet hinside).gone, fun hgone => ?_⟩, ?_⟩
  · rcases found_or_early hstart hrun hinside with hmet | ⟨hover, hnot⟩
    · exact hmet
    · exact absurd (hgone hover).1 hnot
  · intro m₀ name process labels pair hm₀ hheld hpair hin hfree
    obtain ⟨steps, hsteps⟩ := machine_run hpair
    have hreaped := reaped_of_released hm₀ (reachable_run hm₀ hsteps) (steps_trace hsteps) hheld hfree
    exact (guarded_run hstart (session_run hpair) hin).gone (over_of_reaped hpair hreaped)

/-- The service exits with code 0 and the monitor after it. -/
theorem monitor_waits_for_service_exit :
    ∃ moves w, Run SessionStep (.start 6 7) moves w ∧ w.phase = .exited (.code 0) ∧ ServiceGone w := by
  have hrun : Run (Where SessionStep Found) (.start 6 7) _ _ :=
    .cons ⟨show SessionStep _ (.childExited 7 ⟨0⟩) _ from .childExited (by decide) fun _ => rfl,
      fun _ h => by simp at h⟩ <|
    .cons ⟨.polled rfl (show Session.Polls _ ⟨false, false, true⟩ from
      ⟨by decide, by decide, rfl, Or.inr (Or.inr rfl)⟩), fun _ h => by simp at h⟩ <|
    .cons ⟨.noCommand rfl rfl, fun _ h => by simp at h⟩ <|
    .cons ⟨.hungUp rfl, fun _ h => by simp at h⟩ <|
    .cons ⟨.signalled rfl rfl, fun _ h => by simp at h⟩ <|
    .single ⟨.waited rfl (show (7, ⟨0⟩) ∈ _ from List.mem_cons_self), fun _ h => by simp at h⟩
  exact ⟨_, _, hrun.of_where, rfl, (monitor_waits_for_service (by decide) (by decide) hrun.of_where
    (by simp [Inside])).1.mp hrun (Or.inl ⟨_, rfl⟩)⟩

/-- The service 7 of the monitor 6 in another place, with its child 8 in a group of
    its own. -/
def moved (group session : Pid) : ProcessTable.Table :=
  .ofList [(6, ⟨6, 6, false⟩), (7, ⟨group, session, false⟩), (8, ⟨8, 6, false⟩)] compare

/-- The three processes of the table. -/
theorem moved_get (group session pid : Pid) :
    (moved group session)[pid]? = if 8 = pid then some ⟨8, 6, false⟩
      else if 7 = pid then some ⟨group, session, false⟩
      else if 6 = pid then some ⟨6, 6, false⟩ else none := by
  have hofList : moved group session = (((∅ : ProcessTable.Table).insert 6 ⟨6, 6, false⟩).insert 7
      ⟨group, session, false⟩).insert 8 ⟨8, 6, false⟩ := rfl
  rw [hofList, Std.ExtTreeMap.getElem?_insert, Std.ExtTreeMap.getElem?_insert,
    Std.ExtTreeMap.getElem?_insert]
  simp

/-- The kernel lets the service join a group of its session, and leave the session
    for one of its own once its group is empty. -/
theorem moved_admits {group session : Pid}
    (h : group = 8 ∧ session = 6 ∨ group = 7 ∧ session = 7) :
    Session.Admits (.start 6 7) (moved group session) := by
  refine ⟨?_, fun _ => ?_, fun _ _ => ?_⟩
  · intro p q a b ha hb hgroup
    rw [moved_get] at ha hb
    rcases h with ⟨rfl, rfl⟩ | ⟨rfl, rfl⟩
    · split_ifs at ha hb <;> cases ha <;> cases hb <;> rfl
    · split_ifs at ha hb <;> cases ha <;> cases hb <;> first | rfl | exact absurd hgroup (by decide)
  · exact moved_get group session 6
  · show (moved group session)[(7 : Pid)]?.map _ = _
    rw [moved_get]
    rfl

/-- **A service that left its group**: the SIGTERM of beam-init finds no process, and
    the monitor exits with the service still running; and so does a client that
    attaches to a service in a session of its own. -/
theorem stop_loses_service :
    (∃ moves w, Run SessionStep (.start 6 7) moves w ∧ (∀ move ∈ moves, Inside move)
        ∧ w.sent = [.signal SIGTERM] ∧ w.phase = .exited (.code 101) ∧ w.servicePid ∉ w.waited
        ∧ w.live = true)
      ∧ ∃ moves w, Run SessionStep (.start 6 7) moves w ∧ (∀ move ∈ moves, Inside move)
        ∧ w.sent = [.foreground] ∧ w.phase = .exited (.code 101) ∧ w.servicePid ∉ w.waited
        ∧ w.live = true := by
  have hgroup : Run SessionStep (.start 6 7) _ _ :=
    .cons (.regrouped (moved_admits (Or.inl ⟨rfl, rfl⟩))) <|
    .cons (.wrote rfl rfl (not_over (fun _ => Phase.noConfusion) Phase.noConfusion)
      (show Sendable (.signal SIGTERM) from ⟨by decide, by decide⟩) rfl) <|
    .cons (.polled rfl (show Session.Polls _ ⟨true, false, false⟩ from
      ⟨by decide, by decide, rfl, Or.inl rfl⟩)) <|
    .cons (.read rfl rfl rfl rfl) <|
    .single (.callFailed rfl (by decide +kernel))
  have hsession : Run SessionStep (.start 6 7) _ _ :=
    .cons (.regrouped (moved_admits (Or.inr ⟨rfl, rfl⟩))) <|
    .cons (.wrote rfl rfl (not_over (fun _ => Phase.noConfusion) Phase.noConfusion)
      (show Sendable .foreground from trivial) rfl) <|
    .cons (.polled rfl (show Session.Polls _ ⟨true, false, false⟩ from
      ⟨by decide, by decide, rfl, Or.inl rfl⟩)) <|
    .cons (.read rfl rfl rfl rfl) <|
    .single (.callFailed rfl (by decide +kernel))
  exact ⟨⟨_, _, hgroup, by simp [Inside], rfl, rfl, List.not_mem_nil, rfl⟩,
    _, _, hsession, by simp [Inside], rfl, rfl, List.not_mem_nil, rfl⟩

end BeamMonitorExits
