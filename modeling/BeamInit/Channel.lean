import BeamInit.Consistency
import BeamInit.Fence

/-! # The channel — tasks and the events they have sent

    The main loop takes its events off a bounded FIFO channel.  Clients and the
    signal stream put events on it at will, a liveness probe sends at most one
    failure and a grace timer at most one force-kill, and aborting either does
    not recall an event already sent.  A queued event remembers the task it came
    from, which the code does not see.  `Net` takes the handling of an event
    apart into lifecycle steps, so that an invariant is proved once for each. -/

namespace BeamChannel

open BeamApi BeamOs BeamLogs BeamService BeamManager BeamCommands BeamMainLoop
open BeamLifecycle BeamOperations
open BeamRefinement BeamConsistency Runs Fence

/-! ## Tasks and messages -/

/-- A `run_liveness_probe` task: the service and the process it watches, and its
    abort handle. -/
abbrev ProbeTask := Ticket String (Option ServiceProcess) AbortHandle

/-- A request to force-kill: the service, the process whose termination made the
    token, and the token. -/
abbrev ForceKill := Ticket String ServiceProcess TerminationToken

/-- The task that sleeps for the grace period. -/
structure GraceTimer where
  task : AbortHandle
  request : ForceKill
deriving DecidableEq

structure Tasks where
  probes : List ProbeTask
  timers : List GraceTimer
deriving DecidableEq

/-- Tasks spawned and aborted by one effect. -/
def Tasks.step (tasks : Tasks) : Effect → Tasks
  | .probeSpawned task name watched => { tasks with probes := ⟨name, watched, task⟩ :: tasks.probes }
  | .probeAborted task => { tasks with probes := tasks.probes.filter (fun probe => probe.token ≠ task) }
  | .timerSpawned task name token process _ =>
      { tasks with timers := ⟨task, name, process, token⟩ :: tasks.timers }
  | .timerAborted task => { tasks with timers := tasks.timers.filter (fun timer => timer.task ≠ task) }
  | _ => tasks

def Tasks.after (tasks : Tasks) (out : List Effect) : Tasks := out.foldl Tasks.step tasks

/-- An event on the channel, and where it came from. -/
inductive Message where
  /-- From a client, the signal stream or `main`. -/
  | posted (event : Event)
  | probeFailed (probe : ProbeTask)
  | forceKill (request : ForceKill) (credentials : Credentials)
deriving DecidableEq

def Message.event : Message → Event
  | .posted event => event
  | .probeFailed probe => .probeFailed probe.name
  | .forceKill request credentials =>
      .command (.forceKillService request.name request.token) credentials

/-- The events that are not sent by a task of the manager itself. -/
def isPosted : Event → Bool
  | .probeFailed _ => false
  | .command (.forceKillService ..) _ => false
  | _ => true

/-- `tokio::sync::mpsc::channel(10)`. -/
def capacity : Nat := 10

structure System where
  machine : Machine
  tasks : Tasks
  queue : List Message

/-- The command `main` queues to create the first service. -/
def bootstrapCommand (cmd : String) (args : List String) (period : Nat) : Event :=
  .command (.createService bootstrapName {
    cmd, args
    env := ∅
    liveness := none
    pty := false
    labels := ∅
    gracefulTerminationPeriod := period }) .root

def System.new (files : List String) (lines : NonZeroUsize) (init : Event) : System where
  machine := newMachine files lines
  tasks := ⟨[], []⟩
  queue := [.posted init]

/-! ## Who holds which token -/

/-- The process and the token of a status with a grace timer. -/
def pendingKill : ServiceStatus → Option (ServiceProcess × TerminationToken)
  | .stopping process _ (some kill) => some (process, kill.token)
  | _ => none

/-- The process of a status with a grace timer, and the handle that aborts the timer. -/
def pendingTimer : ServiceStatus → Option (ServiceProcess × AbortHandle)
  | .stopping process _ (some kill) => some (process, kill.abortHandle)
  | _ => none

/-- The process and the probe of a running service. -/
def watcher (status : ServiceStatus) (probe : Option AbortHandle) :
    Option (Option ServiceProcess × AbortHandle) :=
  match status, probe with
  | .running process _, some task => some (some process, task)
  | _, _ => none

def killTable (m : Machine) (name : String) : Option (ServiceProcess × TerminationToken) :=
  (m.get? name).bind (fun service => pendingKill service.state.status)

def timerTable (m : Machine) (name : String) : Option (ServiceProcess × AbortHandle) :=
  (m.get? name).bind (fun service => pendingTimer service.state.status)

def probeTable (m : Machine) (name : String) : Option (Option ServiceProcess × AbortHandle) :=
  (m.get? name).bind (fun service => watcher service.state.status service.state.livenessProbe)

/-- The force-kills that a timer may still send or that are on the channel. -/
def killsUnderway (tasks : Tasks) (queue : List Message) : Set ForceKill :=
  { kill | (∃ timer ∈ tasks.timers, timer.request = kill)
    ∨ ∃ credentials, Message.forceKill kill credentials ∈ queue }

/-- A grace timer, by the handle that aborts it. -/
def GraceTimer.ticket (timer : GraceTimer) : Ticket String ServiceProcess AbortHandle :=
  ⟨timer.request.name, timer.request.item, timer.task⟩

def timersUnderway (tasks : Tasks) : Set (Ticket String ServiceProcess AbortHandle) :=
  { ticket | ∃ timer ∈ tasks.timers, timer.ticket = ticket }

/-- The probes that run or whose failure is on the channel. -/
def probesUnderway (tasks : Tasks) (queue : List Message) : Set ProbeTask :=
  { probe | probe ∈ tasks.probes ∨ Message.probeFailed probe ∈ queue }

def issuedKill : Effect → Option ForceKill
  | .timerSpawned _ name token process _ => some ⟨name, process, token⟩
  | _ => none

def issuedTimer : Effect → Option (Ticket String ServiceProcess AbortHandle)
  | .timerSpawned task name _ process _ => some ⟨name, process, task⟩
  | _ => none

def issuedProbe : Effect → Option ProbeTask
  | .probeSpawned task name watched => some ⟨name, watched, task⟩
  | _ => none

def System.LiveToken (sys : System) (token : TerminationToken) : Prop :=
  Live (killTable sys.machine) (killsUnderway sys.tasks sys.queue) token

def System.LiveTimer (sys : System) (task : AbortHandle) : Prop :=
  Live (timerTable sys.machine) (timersUnderway sys.tasks) task

def System.LiveHandle (sys : System) (task : AbortHandle) : Prop :=
  Live (probeTable sys.machine) (probesUnderway sys.tasks sys.queue) task

/-- What is assumed of `Arc` and of `tokio::spawn`: the tokens, the grace timers
    and the probe tasks made by these effects differ from each other and from the
    live ones. -/
structure IdsFresh (sys : System) (out : List Effect) : Prop where
  tokens_nodup : ((out.filterMap issuedKill).map Ticket.token).Nodup
  tokens_new : ∀ token ∈ (out.filterMap issuedKill).map Ticket.token, ¬ sys.LiveToken token
  timers_nodup : ((out.filterMap issuedTimer).map Ticket.token).Nodup
  timers_new : ∀ task ∈ (out.filterMap issuedTimer).map Ticket.token, ¬ sys.LiveTimer task
  handles_nodup : ((out.filterMap issuedProbe).map Ticket.token).Nodup
  handles_new : ∀ task ∈ (out.filterMap issuedProbe).map Ticket.token, ¬ sys.LiveHandle task

/-! ## Steps -/

/-- The effects of one event. -/
def newEffects (m m' : Machine) : List Effect := m'.trace.drop m.trace.length

/-- A trace that has grown is the old one and the new effects. -/
theorem newEffects_eq {m m' : Machine} (h : m.trace <+: m'.trace) :
    m'.trace = m.trace ++ newEffects m m' := by
  obtain ⟨out, hout⟩ := h
  rw [newEffects, ← hout, List.drop_left]

/-- What was appended are the new effects. -/
theorem newEffects_of_append {m m' : Machine} {out : List Effect} (h : m'.trace = m.trace ++ out) :
    newEffects m m' = out := by
  rw [newEffects, h, List.drop_left]

/-- The new effects of two steps are those of the one and of the other. -/
theorem newEffects_append {m₀ m m' : Machine} {out : List Effect} (hpre : m₀.trace <+: m.trace)
    (hout : m'.trace = m.trace ++ out) : newEffects m₀ m' = newEffects m₀ m ++ out := by
  obtain ⟨before, hbefore⟩ := hpre
  show m'.trace.drop _ = m.trace.drop _ ++ out
  rw [hout, ← hbefore, List.append_assoc, List.drop_left, List.drop_left]

/-- The new effects of two steps. -/
theorem newEffects_trans {m m' m'' : Machine} (h : m.trace <+: m'.trace)
    (h' : m'.trace <+: m''.trace) : newEffects m m'' = newEffects m m' ++ newEffects m' m'' :=
  newEffects_append h (newEffects_eq h')

/-- Nothing is new without a step. -/
theorem not_mem_newEffects_self (m : Machine) (e : Effect) : e ∉ newEffects m m := by
  rw [newEffects, List.drop_length]
  exact List.not_mem_nil

inductive SysMove where
  /-- The main loop takes the first event and handles it. -/
  | received (os : Os) (message : Message) (reply : Reply)
  | posted (event : Event)
  | probeSent (probe : ProbeTask)
  /-- A probe that gives up: it exceeded its maximum of retries. -/
  | probeEnded (probe : ProbeTask)
  | timerSent (timer : GraceTimer)
  | logged (name : String) (line : String)

inductive SysStep : System → SysMove → System → Prop where
  | received {sys : System} {message : Message} {rest : List Message} {os : Os} {reply : Reply}
      {m' : Machine} :
      sys.queue = message :: rest → afterEvent sys.machine = .next →
      handleEvent os sys.machine message.event = .ok (reply, m') → SpawnsFresh m'.trace →
      IdsFresh sys (newEffects sys.machine m') →
      SysStep sys (.received os message reply)
        ⟨m', sys.tasks.after (newEffects sys.machine m'), rest⟩
  | posted {sys : System} {event : Event} :
      isPosted event = true → sys.queue.length < capacity →
      SysStep sys (.posted event) { sys with queue := sys.queue ++ [.posted event] }
  | probeSent {sys : System} {probe : ProbeTask} :
      probe ∈ sys.tasks.probes → sys.queue.length < capacity →
      SysStep sys (.probeSent probe) { sys with
        tasks := { sys.tasks with probes := sys.tasks.probes.erase probe }
        queue := sys.queue ++ [.probeFailed probe] }
  | probeEnded {sys : System} {probe : ProbeTask} :
      probe ∈ sys.tasks.probes →
      SysStep sys (.probeEnded probe) { sys with
        tasks := { sys.tasks with probes := sys.tasks.probes.erase probe } }
  | timerSent {sys : System} {timer : GraceTimer} {credentials : Credentials} :
      timer ∈ sys.tasks.timers → sys.queue.length < capacity →
      SysStep sys (.timerSent timer) { sys with
        tasks := { sys.tasks with timers := sys.tasks.timers.erase timer }
        queue := sys.queue ++ [.forceKill timer.request credentials] }
  | logged {sys : System} {name line : String} {m' : Machine} :
      Step sys.machine (.logged name line) m' →
      SysStep sys (.logged name line) { sys with machine := m' }

/-- The states between two steps of any task. -/
def SysReachable (sys : System) : Prop :=
  ∃ files lines cmd args period moves,
    Run SysStep (.new files lines (bootstrapCommand cmd args period)) moves sys

/-- The main loop of a system runs as `BeamMainLoop` has it. -/
theorem SysReachable.machine {sys : System} (h : SysReachable sys) : Reachable sys.machine := by
  obtain ⟨files, lines, cmd, args, period, moves, hrun⟩ := h
  have hsim : ∀ {sys move sys'}, SysStep sys move sys' →
      ∃ moves, Run Step sys.machine moves sys'.machine := by
    intro sys move sys' hstep
    cases hstep with
    | received _ _ hevent hfresh _ => exact ⟨_, .single (.handled hevent hfresh)⟩
    | logged hstep => exact ⟨_, .single hstep⟩
    | posted _ _ | probeSent _ _ | probeEnded _ | timerSent _ _ => exact ⟨_, .nil _⟩
  obtain ⟨moves', hrun'⟩ := @Run.simulate _ _ _ _ SysStep _ _ _ Step System.machine hsim hrun
  exact ⟨files, lines, moves', hrun'⟩

/-- A step from a reachable system leads to a reachable one. -/
theorem SysReachable.snoc {sys sys' : System} {move : SysMove} (h : SysReachable sys)
    (hstep : SysStep sys move sys') : SysReachable sys' := by
  obtain ⟨files, lines, cmd, args, period, moves, hrun⟩ := h
  exact ⟨files, lines, cmd, args, period, _, hrun.snoc hstep⟩

/-- Only the tasks send probe failures and force-kills. -/
theorem sysReachable_posted {sys : System} (h : SysReachable sys) :
    ∀ event, .posted event ∈ sys.queue → isPosted event = true := by
  obtain ⟨files, lines, cmd, args, period, moves, hrun⟩ := h
  refine hrun.invariant (I := fun sys => ∀ event, .posted event ∈ sys.queue → isPosted event = true)
    (fun hI hmove => ?_) ?_
  · -- a step takes the first event off, adds one at the end or leaves the channel alone
    have hadd : ∀ {queue : List Message} {message : Message},
        (∀ event, .posted event ∈ queue → isPosted event = true) →
        (∀ event, message = .posted event → isPosted event = true) →
        ∀ event, .posted event ∈ queue ++ [message] → isPosted event = true := by
      intro queue message hold hnew event hmem
      rcases List.mem_append.mp hmem with hmem | hmem
      · exact hold event hmem
      · exact hnew event (List.mem_singleton.mp hmem).symm
    cases hmove with
    | received hqueue _ _ _ _ =>
        exact fun event hmem => hI event (hqueue ▸ List.mem_cons_of_mem _ hmem)
    | posted hposted _ => exact hadd hI fun event heq => Message.posted.inj heq ▸ hposted
    | probeSent _ _ | timerSent _ _ => exact hadd hI nofun
    | probeEnded _ | logged _ => exact hI
  · intro event hmem
    cases List.mem_singleton.mp hmem
    rfl

/-! ## Executing the system -/

/-- What the entries of the table show, in key order. -/
def shown {A : Type} (f : Service → Option A) (m : Machine) : List A :=
  m.mgr.services.toList.filterMap (fun entry => f entry.2)

/-- What a map of the services shows is shown by one of them. -/
theorem mem_shown {A : Type} {f : Service → Option A} {m : Machine} {a : A} :
    a ∈ shown f m ↔ ∃ name, (m.get? name).bind f = some a := by
  rw [shown, List.mem_filterMap]
  constructor
  · rintro ⟨⟨name, s⟩, hmem, hs⟩
    refine ⟨name, Option.bind_eq_some_iff.mpr ⟨s, ?_, hs⟩⟩
    exact Std.ExtTreeMap.mem_toList_iff_getElem?_eq_some.mp hmem
  · rintro ⟨name, hname⟩
    obtain ⟨s, hget, hs⟩ := Option.bind_eq_some_iff.mp hname
    exact ⟨(name, s), Std.ExtTreeMap.mem_toList_iff_getElem?_eq_some.mpr hget, hs⟩

/-- The token of a force-kill on the channel. -/
def Message.kill? : Message → Option ForceKill
  | .forceKill kill _ => some kill
  | _ => none

def Message.probe? : Message → Option ProbeTask
  | .probeFailed probe => some probe
  | _ => none

def System.liveTokens (sys : System) : List TerminationToken :=
  (shown (fun service => pendingKill service.state.status) sys.machine).map Prod.snd
    ++ (sys.tasks.timers.map GraceTimer.request ++ sys.queue.filterMap Message.kill?).map Ticket.token

def System.liveTimers (sys : System) : List AbortHandle :=
  (shown (fun service => pendingTimer service.state.status) sys.machine).map Prod.snd
    ++ (sys.tasks.timers.map GraceTimer.ticket).map Ticket.token

def System.liveHandles (sys : System) : List AbortHandle :=
  (shown (fun service => watcher service.state.status service.state.livenessProbe)
      sys.machine).map Prod.snd
    ++ (sys.tasks.probes ++ sys.queue.filterMap Message.probe?).map Ticket.token

/-- The list of live tokens has just the tokens that are live. -/
theorem liveToken_iff {sys : System} {token : TerminationToken} :
    token ∈ sys.liveTokens ↔ sys.LiveToken token := by
  refine live_iff_mem (fun _ => mem_shown) fun kill => ?_
  rw [List.mem_append, List.mem_map, List.mem_filterMap]
  refine or_congr Iff.rfl ⟨?_, fun ⟨credentials, hmem⟩ => ⟨_, hmem, rfl⟩⟩
  rintro ⟨message, hmem, hkill⟩
  cases message with
  | forceKill kill' credentials => exact ⟨credentials, Option.some.inj hkill ▸ hmem⟩
  | posted _ | probeFailed _ => exact nomatch hkill

/-- The list of live timers has just the timers that are live. -/
theorem liveTimer_iff {sys : System} {task : AbortHandle} :
    task ∈ sys.liveTimers ↔ sys.LiveTimer task :=
  live_iff_mem (fun _ => mem_shown) fun _ => List.mem_map

/-- The list of live handles has just the handles that are live. -/
theorem liveHandle_iff {sys : System} {task : AbortHandle} :
    task ∈ sys.liveHandles ↔ sys.LiveHandle task := by
  refine live_iff_mem (fun _ => mem_shown) fun probe => ?_
  rw [List.mem_append, List.mem_filterMap]
  refine or_congr Iff.rfl ⟨?_, fun hmem => ⟨_, hmem, rfl⟩⟩
  rintro ⟨message, hmem, hprobe⟩
  cases message with
  | probeFailed probe' => exact Option.some.inj hprobe ▸ hmem
  | posted _ | forceKill _ _ => exact nomatch hprobe

/-- Freshness of the new identities, as something that can be decided. -/
theorem idsFresh_iff {sys : System} {out : List Effect} :
    IdsFresh sys out ↔
      (((out.filterMap issuedKill).map Ticket.token).Nodup
        ∧ ∀ token ∈ (out.filterMap issuedKill).map Ticket.token, token ∉ sys.liveTokens)
      ∧ (((out.filterMap issuedTimer).map Ticket.token).Nodup
        ∧ ∀ task ∈ (out.filterMap issuedTimer).map Ticket.token, task ∉ sys.liveTimers)
      ∧ ((out.filterMap issuedProbe).map Ticket.token).Nodup
        ∧ ∀ task ∈ (out.filterMap issuedProbe).map Ticket.token, task ∉ sys.liveHandles := by
  simp only [liveToken_iff, liveTimer_iff, liveHandle_iff]
  exact ⟨fun h => ⟨⟨h.tokens_nodup, h.tokens_new⟩, ⟨h.timers_nodup, h.timers_new⟩, h.handles_nodup,
      h.handles_new⟩,
    fun h => ⟨h.1.1, h.1.2, h.2.1.1, h.2.1.2, h.2.2.1, h.2.2.2⟩⟩

instance (sys : System) (out : List Effect) : Decidable (IdsFresh sys out) :=
  decidable_of_iff _ idsFresh_iff.symm

/-- What may happen next, by position. -/
inductive Choice where
  | receive (os : Os)
  | post (event : Event)
  | failProbe (index : Nat)
  | fireTimer (index : Nat)

/-- The step a choice makes, if it can be made. -/
def System.perform (sys : System) : Choice → Option System
  | .receive os =>
      match sys.queue with
      | [] => none
      | message :: rest =>
          match handleEvent os sys.machine message.event with
          | .error _ => none
          | .ok (_, m') =>
              if afterEvent sys.machine = .next ∧ SpawnsFresh m'.trace
                  ∧ IdsFresh sys (newEffects sys.machine m') then
                some ⟨m', sys.tasks.after (newEffects sys.machine m'), rest⟩
              else none
  | .post event =>
      if isPosted event = true ∧ sys.queue.length < capacity then
        some { sys with queue := sys.queue ++ [.posted event] }
      else none
  | .failProbe index =>
      match sys.tasks.probes[index]? with
      | none => none
      | some probe =>
          if sys.queue.length < capacity then
            some { sys with
              tasks := { sys.tasks with probes := sys.tasks.probes.erase probe }
              queue := sys.queue ++ [.probeFailed probe] }
          else none
  | .fireTimer index =>
      match sys.tasks.timers[index]? with
      | none => none
      | some timer =>
          if sys.queue.length < capacity then
            some { sys with
              tasks := { sys.tasks with timers := sys.tasks.timers.erase timer }
              queue := sys.queue ++ [.forceKill timer.request .root] }
          else none

/-- The reply to an event, unless its handling panics. -/
def replyTo (os : Os) (m : Machine) (event : Event) : Option Reply :=
  (handleEvent os m event).toOption.map Prod.fst

/-- Receiving by a choice is receiving the message at the head of the queue. -/
theorem receive_ok {sys sys' : System} {os : Os} (h : sys.perform (.receive os) = some sys') :
    ∃ message reply, sys.queue.head? = some message
      ∧ replyTo os sys.machine message.event = some reply
      ∧ SysStep sys (.received os message reply) sys' := by
  unfold System.perform at h
  cases hqueue : sys.queue with
  | nil => dsimp only at h; rw [hqueue] at h; exact nomatch h
  | cons message rest =>
      dsimp only at h
      rw [hqueue] at h
      dsimp only at h
      cases hevent : handleEvent os sys.machine message.event with
      | error p => rw [hevent] at h; exact nomatch h
      | ok outcome =>
          obtain ⟨reply, m'⟩ := outcome
          rw [hevent] at h
          obtain ⟨⟨hnext, hspawns, hfresh⟩, hsys⟩ := Option.ite_none_right_eq_some.mp h
          cases hsys
          refine ⟨message, reply, rfl, ?_, .received hqueue hnext hevent hspawns hfresh⟩
          rw [replyTo, hevent]
          rfl

/-- Whatever is chosen is a step of the system. -/
theorem perform_ok {sys sys' : System} {choice : Choice} (h : sys.perform choice = some sys') :
    ∃ move, SysStep sys move sys' := by
  cases choice with
  | receive os =>
      obtain ⟨message, reply, -, -, hstep⟩ := receive_ok h
      exact ⟨_, hstep⟩
  | post event =>
      obtain ⟨⟨hposted, hroom⟩, hsys⟩ := Option.ite_none_right_eq_some.mp h
      cases hsys
      exact ⟨_, .posted hposted hroom⟩
  | failProbe index =>
      rw [System.perform] at h
      cases hget : sys.tasks.probes[index]? with
      | none => dsimp only at h; rw [hget] at h; exact nomatch h
      | some probe =>
          dsimp only at h
          rw [hget] at h
          obtain ⟨hroom, hsys⟩ := Option.ite_none_right_eq_some.mp h
          cases hsys
          exact ⟨_, .probeSent (List.mem_of_getElem? hget) hroom⟩
  | fireTimer index =>
      rw [System.perform] at h
      cases hget : sys.tasks.timers[index]? with
      | none => dsimp only at h; rw [hget] at h; exact nomatch h
      | some timer =>
          dsimp only at h
          rw [hget] at h
          obtain ⟨hroom, hsys⟩ := Option.ite_none_right_eq_some.mp h
          cases hsys
          exact ⟨_, .timerSent (List.mem_of_getElem? hget) hroom⟩

/-- A system whose first service is a shell. -/
def shellSystem : System := .new [] fiveLines (bootstrapCommand "/bin/sh" [] 10)

/-- The choices one after the other, as long as they can be made. -/
def performAll (sys : System) (choices : List Choice) : Option System :=
  choices.foldlM System.perform sys

/-- Choices one after the other lead to a reachable system. -/
theorem reachable_of_performAll {sys sys' : System} {choices : List Choice} (h : SysReachable sys)
    (hall : performAll sys choices = some sys') : SysReachable sys' := by
  induction choices generalizing sys with
  | nil => cases hall; exact h
  | cons choice choices ih =>
      rw [performAll, List.foldlM_cons] at hall
      obtain ⟨mid, hfirst, hrest⟩ := Option.bind_eq_some_iff.mp hall
      obtain ⟨move, hstep⟩ := perform_ok hfirst
      exact ih (h.snoc hstep) hrest

/-- Where the shell's system stands after these choices. -/
def systemAfter (choices : List Choice) : System := (performAll shellSystem choices).getD shellSystem

/-- Choices that can all be made lead from the shell to a reachable system. -/
theorem systemAfter_reachable {choices : List Choice}
    (h : (performAll shellSystem choices).isSome = true) : SysReachable (systemAfter choices) := by
  obtain ⟨sys, hsys⟩ := Option.isSome_iff_exists.mp h
  rw [systemAfter, hsys]
  exact reachable_of_performAll ⟨[], fiveLines, "/bin/sh", [], 10, [], .nil _⟩ hsys

/-- The last choice is performed where the others led. -/
theorem systemAfter_perform {choices : List Choice} {choice : Choice}
    (h : (performAll shellSystem (choices ++ [choice])).isSome = true) :
    (systemAfter choices).perform choice = some (systemAfter (choices ++ [choice])) := by
  obtain ⟨sys', hsys'⟩ := Option.isSome_iff_exists.mp h
  have hall := hsys'
  rw [performAll, List.foldlM_append] at hall
  obtain ⟨sys, hsys, hlast⟩ := Option.bind_eq_some_iff.mp hall
  rw [List.foldlM_cons] at hlast
  obtain ⟨mid, hperform, hnil⟩ := Option.bind_eq_some_iff.mp hlast
  cases hnil
  have hbefore : systemAfter choices = sys := by rw [systemAfter, performAll, hsys]; rfl
  have hafter : systemAfter (choices ++ [choice]) = sys' := by rw [systemAfter, hsys']; rfl
  rw [hbefore, hafter]
  exact hperform

/-- The last choice was to take an event off the channel. -/
theorem systemAfter_receive {choices : List Choice} {os : Os} {message : Message} {reply : Reply}
    (h : (performAll shellSystem (choices ++ [.receive os])).isSome = true)
    (hhead : (systemAfter choices).queue.head? = some message)
    (hreply : replyTo os (systemAfter choices).machine message.event = some reply) :
    SysStep (systemAfter choices) (.received os message reply)
      (systemAfter (choices ++ [.receive os])) := by
  obtain ⟨message', reply', hhead', hreply', hstep⟩ := receive_ok (systemAfter_perform h)
  cases hhead.symm.trans hhead'
  cases hreply.symm.trans hreply'
  exact hstep

/-- The last choice was to post an event. -/
theorem systemAfter_post {choices : List Choice} {event : Event}
    (h : (performAll shellSystem (choices ++ [.post event])).isSome = true) :
    SysStep (systemAfter choices) (.posted event) (systemAfter (choices ++ [.post event])) := by
  have hperform := systemAfter_perform h
  obtain ⟨⟨hposted, hroom⟩, hsys⟩ := Option.ite_none_right_eq_some.mp hperform
  rw [← Option.some.inj hsys]
  exact .posted hposted hroom

end BeamChannel
