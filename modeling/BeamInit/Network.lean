import BeamInit.Tickets

/-! # The network — the invariant of the main loop and its tasks

    The handling of an event is a run of lifecycle steps, each with its effects
    on the tasks; between them the tasks and the channel only lose tickets.  So
    the three fences hold in every reachable state of the system. -/

namespace BeamNetwork

open BeamApi BeamOs BeamService BeamManager BeamMainLoop BeamLifecycle BeamOperations
open BeamRefinement BeamConsistency BeamChannel BeamTickets Runs Fence

/-! ## The tasks -/

/-- A task that is there after some effects was there before, or they issued its ticket. -/
theorem mem_after {A V T : Type} {issue : Effect → Option (Ticket String V T)}
    {part : Tasks → List A} {ticket : A → Ticket String V T}
    (hstep : ∀ {tasks e a}, a ∈ part (Tasks.step tasks e) → a ∈ part tasks ∨ issue e = some (ticket a))
    {tasks : Tasks} {out : List Effect} {a : A} (h : a ∈ part (tasks.after out)) :
    a ∈ part tasks ∨ ticket a ∈ out.filterMap issue := by
  induction out generalizing tasks with
  | nil => exact Or.inl h
  | cons e out ih =>
      rw [List.mem_filterMap]
      rcases ih (show a ∈ part ((tasks.step e).after out) from h) with hfirst | hlater
      · rcases hstep hfirst with hold | hnew
        · exact Or.inl hold
        · exact Or.inr ⟨e, List.mem_cons_self, hnew⟩
      · obtain ⟨e', hmem, hissue⟩ := List.mem_filterMap.mp hlater
        exact Or.inr ⟨e', List.mem_cons_of_mem _ hmem, hissue⟩

theorem timer_step {tasks : Tasks} {e : Effect} {timer : GraceTimer}
    (h : timer ∈ (tasks.step e).timers) :
    timer ∈ tasks.timers ∨ issuedKill e = some timer.request := by
  cases e with
  | timerSpawned task name token process period =>
      rcases List.mem_cons.mp h with rfl | hold
      · exact Or.inr rfl
      · exact Or.inl hold
  | timerAborted task => exact Or.inl (List.mem_of_mem_filter h)
  | _ => exact Or.inl h

theorem probe_step {tasks : Tasks} {e : Effect} {probe : ProbeTask}
    (h : probe ∈ (tasks.step e).probes) : probe ∈ tasks.probes ∨ issuedProbe e = some probe := by
  cases e with
  | probeSpawned task name watched =>
      rcases List.mem_cons.mp h with rfl | hold
      · exact Or.inr rfl
      · exact Or.inl hold
  | probeAborted task => exact Or.inl (List.mem_of_mem_filter h)
  | _ => exact Or.inl h

theorem kills_after {tasks : Tasks} {queue : List Message} {out : List Effect} {kill : ForceKill}
    (h : kill ∈ killsUnderway (tasks.after out) queue) :
    kill ∈ killsUnderway tasks queue ∨ kill ∈ out.filterMap issuedKill := by
  rcases h with ⟨timer, hmem, rfl⟩ | hqueued
  · rcases mem_after timer_step hmem with hold | hnew
    · exact Or.inl (Or.inl ⟨timer, hold, rfl⟩)
    · exact Or.inr hnew
  · exact Or.inl (Or.inr hqueued)

theorem probes_after {tasks : Tasks} {queue : List Message} {out : List Effect} {probe : ProbeTask}
    (h : probe ∈ probesUnderway (tasks.after out) queue) :
    probe ∈ probesUnderway tasks queue ∨ probe ∈ out.filterMap issuedProbe := by
  rcases h with hrunning | hqueued
  · have hstep : ∀ {tasks e a}, a ∈ (Tasks.step tasks e).probes →
        a ∈ tasks.probes ∨ issuedProbe e = some (id a) := probe_step
    rcases mem_after hstep hrunning with hold | hnew
    · exact Or.inl (Or.inl hold)
    · exact Or.inr hnew
  · exact Or.inl (Or.inr hqueued)

theorem timers_after {tasks : Tasks} {out : List Effect}
    {ticket : Ticket String ServiceProcess AbortHandle} (h : ticket ∈ timersUnderway (tasks.after out)) :
    ticket ∈ timersUnderway tasks ∨ ticket ∈ out.filterMap issuedTimer := by
  have hstep : ∀ {tasks e} {a : GraceTimer}, a ∈ (Tasks.step tasks e).timers →
      a ∈ tasks.timers ∨ issuedTimer e = some a.ticket := by
    intro tasks e timer hmem
    cases e with
    | timerSpawned task name token process period =>
        rcases List.mem_cons.mp hmem with rfl | hold
        · exact Or.inr rfl
        · exact Or.inl hold
    | timerAborted task => exact Or.inl (List.mem_of_mem_filter hmem)
    | _ => exact Or.inl hmem
  obtain ⟨timer, hmem, rfl⟩ := h
  rcases mem_after hstep hmem with hold | hnew
  · exact Or.inl ⟨timer, hold, rfl⟩
  · exact Or.inr hnew

/-! ## The steps of the system, taken apart -/

/-- One lifecycle step with what it does to the tasks, or a change of the tasks
    and the channel that brings no new ticket. -/
inductive Net : System → Option Label → System → Prop where
  | beat {sys : System} {label : Label} {m' : Machine} {out : List Effect} :
      Lifecycle sys.machine label m' → m'.trace = sys.machine.trace ++ out →
      SpawnsFresh m'.trace → IdsFresh sys out →
      Net sys (some label) ⟨m', sys.tasks.after out, sys.queue⟩
  | moved {sys : System} {tasks : Tasks} {queue : List Message} :
      killsUnderway tasks queue ⊆ killsUnderway sys.tasks sys.queue →
      timersUnderway tasks ⊆ timersUnderway sys.tasks →
      probesUnderway tasks queue ⊆ probesUnderway sys.tasks sys.queue →
      Net sys none ⟨sys.machine, tasks, queue⟩

/-- **The invariant of the system**: the three fences hold. -/
structure Fenced (sys : System) : Prop where
  spawns : SpawnsFresh sys.machine.trace
  consistent : Consistent sys.machine
  tended : AllTended sys.machine
  kills : Bound (killTable sys.machine) (killsUnderway sys.tasks sys.queue)
  timers : Bound (timerTable sys.machine) (timersUnderway sys.tasks)
  probes : Bound (probeTable sys.machine) (probesUnderway sys.tasks sys.queue)

theorem fenced_new (files : List String) (lines : BeamLogs.NonZeroUsize) (init : Event) :
    Fenced (.new files lines init) where
  spawns pre e post heq := absurd heq.symm (by simp [System.new, newMachine])
  consistent := consistent_new files lines
  tended _ _ h := nomatch h
  kills := .empty
  timers := .empty
  probes := .empty

/-- The step lemma of the invariant. -/
theorem fenced_net {sys sys' : System} {label : Option Label} (hf : Fenced sys)
    (h : Net sys label sys') : Fenced sys' := by
  cases h with
  | beat hstep hout hspawns hfresh =>
      obtain ⟨⟨name, kill, timer, probe, hr⟩, htended⟩ :=
        lifecycle_renewed hf.consistent hf.tended hstep hout
      refine ⟨hspawns, consistent_step hspawns hf.consistent hstep, htended, ?_, ?_, ?_⟩
      · show Bound (killTable _) _
        rw [hr.kills_eq]
        exact hr.kills.bound hf.kills (fun _ => kills_after) hfresh.tokens_new
      · show Bound (timerTable _) _
        rw [hr.timers_eq]
        exact hr.timers.bound hf.timers (fun _ => timers_after) hfresh.timers_new
      · show Bound (probeTable _) _
        rw [hr.probes_eq]
        exact hr.probes.bound hf.probes (fun _ => probes_after) hfresh.handles_new
  | moved hkills htimers hprobes =>
      exact ⟨hf.spawns, hf.consistent, hf.tended, hf.kills.mono hkills, hf.timers.mono htimers,
        hf.probes.mono hprobes⟩

/-- Ids that are fresh for a sequence of effects are fresh for the second part of
    it after the step that made the first. -/
theorem idsFresh_rest {sys : System} {label : Label} {m' : Machine} {out out' : List Effect}
    (hf : Fenced sys) (hstep : Lifecycle sys.machine label m')
    (hout : m'.trace = sys.machine.trace ++ out) (hfresh : IdsFresh sys (out ++ out')) :
    IdsFresh sys out ∧ IdsFresh ⟨m', sys.tasks.after out, sys.queue⟩ out' := by
  obtain ⟨⟨name, kill, timer, probe, hr⟩, -⟩ := lifecycle_renewed hf.consistent hf.tended hstep hout
  obtain ⟨htn, htl, hgn, hgl, hhn, hhl⟩ := hfresh
  rw [List.filterMap_append, List.map_append] at htn htl hgn hgl hhn hhl
  rw [List.nodup_append] at htn hgn hhn
  refine ⟨⟨htn.1, fun _ h => htl _ (List.mem_append_left _ h), hgn.1,
    fun _ h => hgl _ (List.mem_append_left _ h), hhn.1, fun _ h => hhl _ (List.mem_append_left _ h)⟩,
    htn.2.1, fun token hmem hlive => ?_, hgn.2.1, fun task hmem hlive => ?_, hhn.2.1,
    fun task hmem hlive => ?_⟩
  · have hlive' : Live (Function.update (killTable sys.machine) name kill)
        (killsUnderway (sys.tasks.after out) sys.queue) token := hr.kills_eq ▸ hlive
    rcases hr.kills.live (fun _ => kills_after) hlive' with hold | hnew
    · exact htl _ (List.mem_append_right _ hmem) hold
    · exact htn.2.2 _ hnew _ hmem rfl
  · have hlive' : Live (Function.update (timerTable sys.machine) name timer)
        (timersUnderway (sys.tasks.after out)) task := hr.timers_eq ▸ hlive
    rcases hr.timers.live (fun _ => timers_after) hlive' with hold | hnew
    · exact hgl _ (List.mem_append_right _ hmem) hold
    · exact hgn.2.2 _ hnew _ hmem rfl
  · have hlive' : Live (Function.update (probeTable sys.machine) name probe)
        (probesUnderway (sys.tasks.after out) sys.queue) task := hr.probes_eq ▸ hlive
    rcases hr.probes.live (fun _ => probes_after) hlive' with hold | hnew
    · exact hhl _ (List.mem_append_right _ hmem) hold
    · exact hhn.2.2 _ hnew _ hmem rfl

/-- The lifecycle steps of one event, with their effects on the tasks. -/
theorem net_of_lifecycle {sys : System} {labels : List Label} {m' : Machine} {out : List Effect}
    (hf : Fenced sys) (hrun : Run Lifecycle sys.machine labels m')
    (hout : m'.trace = sys.machine.trace ++ out) (hspawns : SpawnsFresh m'.trace)
    (hfresh : IdsFresh sys out) :
    Run Net sys (labels.map some) ⟨m', sys.tasks.after out, sys.queue⟩ := by
  induction labels generalizing sys out with
  | nil =>
      have hm := hrun.eq_of_nil
      rw [← hm] at hout ⊢
      obtain rfl := List.self_eq_append_right.mp hout
      exact .nil sys
  | cons label labels ih =>
      cases hrun with
      | @cons _ m₁ _ _ _ hstep hrest =>
          obtain ⟨out₁, out₂, rfl, hout₁, hout₂⟩ := effects_split hstep hrest hout
          obtain ⟨hfirst, hsecond⟩ := idsFresh_rest hf hstep hout₁ hfresh
          have hbeat : Net sys (some label) ⟨m₁, sys.tasks.after out₁, sys.queue⟩ :=
            .beat hstep hout₁ (spawnsFresh_before (run_trace hrest) hspawns) hfirst
          have hafter : (sys.tasks.after out₁).after out₂ = sys.tasks.after (out₁ ++ out₂) :=
            List.foldl_append.symm
          have := ih (fenced_net hf hbeat) hrest hout₂ hsecond
          exact .cons hbeat (hafter ▸ this)

/-- Putting a task's event on the channel, or dropping the task, brings no new ticket. -/
theorem moved_of_subset {sys : System} {tasks : Tasks} {queue : List Message}
    (htimers : ∀ timer ∈ tasks.timers, timer ∈ sys.tasks.timers)
    (hprobes : ∀ probe ∈ tasks.probes, probe ∈ sys.tasks.probes)
    (hqueue : ∀ message ∈ queue, message ∈ sys.queue
      ∨ (∃ event, message = .posted event)
      ∨ (∃ probe ∈ sys.tasks.probes, message = .probeFailed probe)
      ∨ ∃ timer ∈ sys.tasks.timers, ∃ credentials, message = .forceKill timer.request credentials) :
    Net sys none ⟨sys.machine, tasks, queue⟩ := by
  refine .moved ?_ ?_ ?_
  · rintro kill (⟨timer, hmem, rfl⟩ | ⟨credentials, hmem⟩)
    · exact Or.inl ⟨timer, htimers timer hmem, rfl⟩
    · rcases hqueue _ hmem with hold | ⟨event, heq⟩ | ⟨probe, -, heq⟩ | ⟨timer, htimer, c, heq⟩
      · exact Or.inr ⟨credentials, hold⟩
      · exact nomatch heq
      · exact nomatch heq
      · cases heq
        exact Or.inl ⟨timer, htimer, rfl⟩
  · rintro ticket ⟨timer, hmem, rfl⟩
    exact ⟨timer, htimers timer hmem, rfl⟩
  · rintro probe (hmem | hmem)
    · exact Or.inl (hprobes probe hmem)
    · rcases hqueue _ hmem with hold | ⟨event, heq⟩ | ⟨probe, hprobe, heq⟩ | ⟨timer, -, c, heq⟩
      · exact Or.inr hold
      · exact nomatch heq
      · cases heq
        exact Or.inl hprobe
      · exact nomatch heq

/-- The handling of an event, before the event is taken off the channel. -/
theorem beats_of_event {sys : System} {os : Os} {event : Event} {reply : Reply} {m' : Machine}
    (hf : Fenced sys) (hevent : handleEvent os sys.machine event = .ok (reply, m'))
    (hspawns : SpawnsFresh m'.trace) (hfresh : IdsFresh sys (newEffects sys.machine m')) :
    ∃ labels : List Label, Run Net sys (labels.map some)
      ⟨m', sys.tasks.after (newEffects sys.machine m'), sys.queue⟩ := by
  obtain ⟨labels, hrun, -⟩ := handleEvent_ok hevent
  exact ⟨labels, net_of_lifecycle hf hrun (newEffects_eq (run_trace hrun)) hspawns hfresh⟩

/-- A line pushed to a log is a lifecycle step that concerns no task. -/
theorem beat_of_logged {sys : System} {name line : String} {m' : Machine} (hf : Fenced sys)
    (h : Step sys.machine (.logged name line) m') :
    Net sys (some (.act name .log)) { sys with machine := m' } := by
  cases h with
  | @logged _ _ service hget =>
      have hout : (sys.machine.put name (pushLine service line) []).trace
          = sys.machine.trace ++ [] := rfl
      have hspawns : SpawnsFresh (sys.machine.put name (pushLine service line) []).trace := by
        rw [put_quiet_trace]
        exact hf.spawns
      exact .beat (act_log hget) hout hspawns ⟨.nil, nofun, .nil, nofun, .nil, nofun⟩

/-- **Every step of the system is a run of net steps.** -/
theorem sysStep_net {sys sys' : System} {move : SysMove} (hf : Fenced sys)
    (h : SysStep sys move sys') : ∃ labels, Run Net sys labels sys' := by
  cases h with
  | @received message rest _ _ m' hqueue _ hevent hspawns hfresh =>
      obtain ⟨labels, hnet⟩ := beats_of_event hf hevent hspawns hfresh
      refine ⟨_, hnet.snoc (moved_of_subset (fun _ h => h) (fun _ h => h) fun message hmem => ?_)⟩
      rw [hqueue]
      exact Or.inl (List.mem_cons_of_mem _ hmem)
  | @posted event _ _ =>
      refine ⟨_, .single (moved_of_subset (fun _ h => h) (fun _ h => h) fun message hmem => ?_)⟩
      rcases List.mem_append.mp hmem with hold | hnew
      · exact Or.inl hold
      · exact Or.inr (Or.inl ⟨event, List.mem_singleton.mp hnew⟩)
  | @probeSent probe hprobe _ =>
      refine ⟨_, .single (moved_of_subset (fun _ h => h) (fun _ => List.mem_of_mem_erase)
        fun message hmem => ?_)⟩
      rcases List.mem_append.mp hmem with hold | hnew
      · exact Or.inl hold
      · exact Or.inr (Or.inr (Or.inl ⟨probe, hprobe, List.mem_singleton.mp hnew⟩))
  | probeEnded _ =>
      exact ⟨_, .single (moved_of_subset (fun _ h => h) (fun _ => List.mem_of_mem_erase)
        fun _ => Or.inl)⟩
  | @timerSent timer credentials htimer _ =>
      refine ⟨_, .single (moved_of_subset (fun _ => List.mem_of_mem_erase) (fun _ h => h)
        fun message hmem => ?_)⟩
      rcases List.mem_append.mp hmem with hold | hnew
      · exact Or.inl hold
      · exact Or.inr (Or.inr (Or.inr ⟨timer, htimer, credentials, List.mem_singleton.mp hnew⟩))
  | logged hstep => exact ⟨_, .single (beat_of_logged hf hstep)⟩

/-- **The invariant rule of the system**: what holds at the start and is kept by
    each net step holds in every reachable state, and so do the fences. -/
theorem net_invariant {I : System → Prop} (hnew : ∀ files lines init, I (.new files lines init))
    (hstep : ∀ {sys label sys'}, Fenced sys → I sys → Net sys label sys' → I sys')
    {sys : System} (h : SysReachable sys) : Fenced sys ∧ I sys := by
  obtain ⟨files, lines, cmd, args, period, moves, hrun⟩ := h
  have hnet : ∀ {sys label sys'}, Fenced sys ∧ I sys → Net sys label sys' → Fenced sys' ∧ I sys' :=
    fun hI hnet => ⟨fenced_net hI.1 hnet, hstep hI.1 hI.2 hnet⟩
  refine hrun.invariant (I := fun sys => Fenced sys ∧ I sys) (fun hI hmove => ?_)
    ⟨fenced_new files lines _, hnew files lines _⟩
  obtain ⟨labels, hlabels⟩ := sysStep_net hI.1 hmove
  exact hlabels.invariant (I := fun sys => Fenced sys ∧ I sys) hnet hI

theorem sysReachable_fenced {sys : System} (h : SysReachable sys) : Fenced sys :=
  (net_invariant (I := fun _ => True) (fun _ _ _ => trivial) (fun _ _ _ => trivial) h).1

/-- What the lifecycle steps keep holds once an event has been handled and is
    still at the head of the channel. -/
theorem beats_invariant {I : System → Prop}
    (hbeat : ∀ {sys label sys'}, Fenced sys → I sys → Net sys (some label) sys' → I sys')
    {sys : System} {os : Os} {event : Event} {reply : Reply} {m' : Machine} (hf : Fenced sys)
    (hI : I sys) (hevent : handleEvent os sys.machine event = .ok (reply, m'))
    (hspawns : SpawnsFresh m'.trace) (hfresh : IdsFresh sys (newEffects sys.machine m')) :
    I ⟨m', sys.tasks.after (newEffects sys.machine m'), sys.queue⟩ := by
  obtain ⟨labels, hnet⟩ := beats_of_event hf hevent hspawns hfresh
  refine (hnet.invariant_of (I := fun sys => Fenced sys ∧ I sys)
    (Q := fun label => ∃ l, label = some l) ?_ ?_ ⟨hf, hI⟩).2
  · rintro sys label sys' ⟨l, rfl⟩ hI hstep
    exact ⟨fenced_net hI.1 hstep, hbeat hI.1 hI.2 hstep⟩
  · intro label hmem
    obtain ⟨l, -, rfl⟩ := List.mem_map.mp hmem
    exact ⟨l, rfl⟩

/-- What holds at the start and is kept by each step of the system, given the
    fences, holds in every reachable state. -/
theorem sysReachable_invariant {I : System → Prop} (hnew : ∀ files lines init, I (.new files lines init))
    (hstep : ∀ {sys move sys'}, Fenced sys → I sys → SysStep sys move sys' → I sys')
    {sys : System} (h : SysReachable sys) : I sys := by
  obtain ⟨files, lines, cmd, args, period, moves, hrun⟩ := h
  refine (hrun.invariant (I := fun sys => Fenced sys ∧ I sys) (fun hI hmove => ?_)
    ⟨fenced_new files lines _, hnew files lines _⟩).2
  obtain ⟨labels, hnet⟩ := sysStep_net hI.1 hmove
  exact ⟨hnet.invariant fenced_net hI.1, hstep hI.1 hI.2 hmove⟩

end BeamNetwork
