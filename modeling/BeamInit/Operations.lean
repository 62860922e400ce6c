import BeamInit.Lifecycle

/-! # Operations — each one as lifecycle steps

    Every operation of `BeamManager` that comes back leaves either an error and
    the machine as it was, or one lifecycle step of the entry it names; reaping
    and shutdown are runs of such steps.  This is the only place where the
    bodies of the operations are unfolded for the invariants. -/

namespace BeamOperations

open BeamApi BeamOs BeamLogs BeamPublisher BeamService BeamSpawnArgs BeamManager BeamCommands
open BeamMainLoop BeamLifecycle Runs

/-! ## The table of services -/

section Table

variable {m : Machine} {name other : String} {s s' : Service} {out out' : List Effect}

/-- Writing an entry is seen under its name only. -/
theorem get?_put (m : Machine) (name other : String) (s : Service) (out : List Effect) :
    (m.put name s out).get? other = if name = other then some s else m.get? other := by
  show (m.mgr.services.insert name s)[other]? = _
  rw [Std.ExtTreeMap.getElem?_insert]
  simp only [Std.LawfulEqOrd.compare_eq_iff_eq]

/-- So is removing one. -/
theorem get?_remove (m : Machine) (name other : String) (out : List Effect) :
    (m.remove name out).get? other = if name = other then none else m.get? other := by
  show (m.mgr.services.erase name)[other]? = _
  rw [Std.ExtTreeMap.getElem?_erase]
  simp only [Std.LawfulEqOrd.compare_eq_iff_eq]

@[simp] theorem get?_put_self : (m.put name s out).get? name = some s := by
  rw [get?_put, if_pos rfl]

theorem get?_put_ne (h : name ≠ other) : (m.put name s out).get? other = m.get? other := by
  rw [get?_put, if_neg h]

@[simp] theorem get?_emit : (m.emit out).get? name = m.get? name := rfl

theorem put_quiet_trace : (m.put name s []).trace = m.trace := List.append_nil _

/-- Writing an entry twice keeps the second value and both effects. -/
theorem put_put : (m.put name s out).put name s' out' = m.put name s' (out ++ out') := by
  have hmap : (m.mgr.services.insert name s).insert name s' = m.mgr.services.insert name s' := by
    refine Std.ExtTreeMap.ext_getElem? fun k => ?_
    simp only [Std.ExtTreeMap.getElem?_insert]
    split <;> rfl
  show Machine.mk _ _ = Machine.mk _ _
  rw [Machine.mk.injEq]
  exact ⟨congrArg (fun services => { m.mgr with services := services }) hmap,
    List.append_assoc _ _ _⟩

/-- Writing back an entry unchanged only emits the effects. -/
theorem put_same (h : m.get? name = some s) : m.put name s out = m.emit out := by
  have hmap : m.mgr.services.insert name s = m.mgr.services := by
    refine Std.ExtTreeMap.ext_getElem? fun k => ?_
    rw [Std.ExtTreeMap.getElem?_insert]
    by_cases hk : compare name k = .eq
    · rw [if_pos hk, ← Std.LawfulEqOrd.compare_eq_iff_eq.mp hk]
      exact h.symm
    · rw [if_neg hk]
  show Machine.mk _ _ = Machine.mk _ _
  rw [hmap]

/-- Effects before a write are part of its effects. -/
theorem emit_put : (m.emit out).put name s out' = m.put name s (out ++ out') := by
  show Machine.mk _ _ = Machine.mk _ _
  rw [Machine.mk.injEq]
  exact ⟨rfl, List.append_assoc _ _ _⟩

/-- Effects before a removal are part of its effects. -/
theorem emit_remove : (m.emit out).remove name out' = m.remove name (out ++ out') := by
  show Machine.mk _ _ = Machine.mk _ _
  rw [Machine.mk.injEq]
  exact ⟨rfl, List.append_assoc _ _ _⟩

/-- What a lifecycle step leaves of every entry. -/
theorem get?_write (entry : Option Service) :
    (write m name entry out).get? other = if name = other then entry else m.get? other := by
  cases entry with
  | some s => exact get?_put m name other s out
  | none => exact get?_remove m name other out

@[simp] theorem write_shutdown (entry : Option Service) :
    (write m name entry out).mgr.shutdown = m.mgr.shutdown := by
  cases entry <;> rfl

@[simp] theorem write_trace (entry : Option Service) :
    (write m name entry out).trace = m.trace ++ out := by
  cases entry <;> rfl

/-- The names in use are those with an entry. -/
theorem mem_keys_iff : name ∈ m.mgr.services.keys ↔ (m.get? name).isSome := by
  rw [Std.ExtTreeMap.mem_keys]
  exact Std.ExtTreeMap.isSome_getElem?_iff_mem.symm

/-- A step that leaves its entry in the table. -/
theorem act_put {action : Action} (hget : m.get? name = some s)
    (h : Transition m.mgr.shutdown name action (some s) out (some s')) :
    Lifecycle m (.act name action) (m.put name s' out) :=
  show Lifecycle m _ (write m name (some s') out) from .act (hget ▸ h)

/-- A transition that leaves no entry is a removal. -/
theorem act_remove {action : Action} (hget : m.get? name = some s)
    (h : Transition m.mgr.shutdown name action (some s) out none) :
    Lifecycle m (.act name action) (m.remove name out) :=
  show Lifecycle m _ (write m name none out) from .act (hget ▸ h)

end Table

/-! ## Inverting the operations on one entry -/

/-- A computation in two parts returns what its second part makes of the first. -/
theorem bind_eq_ok {ε α β : Type} {x : Except ε α} {f : α → Except ε β} {b : β} :
    (x >>= f) = .ok b ↔ ∃ a, x = .ok a ∧ f a = .ok b := by
  cases x with
  | error e => exact ⟨nofun, fun ⟨_, h, _⟩ => nomatch h⟩
  | ok a => exact ⟨(⟨a, rfl, ·⟩), fun ⟨_, h, hf⟩ => by cases h; exact hf⟩

/-- `s` still has everything of `s₀` but its status, probe handle and writer. -/
structure Copy (s s₀ : Service) : Prop where
  config : s.config = s₀.config
  attempts : s.state.automaticRestartAttempts = s₀.state.automaticRestartAttempts
  queue : s.state.logs.queue = s₀.state.logs.queue
  publisher : s.state.serviceStatusPublisher = s₀.state.serviceStatusPublisher

theorem Copy.refl (s : Service) : Copy s s := ⟨rfl, rfl, rfl, rfl⟩

/-- A placeholder for the status leaves the rest. -/
theorem Copy.replaceStatus (s : Service) (status : ServiceStatus) :
    Copy (s.replaceStatus status) s := ⟨rfl, rfl, rfl, rfl⟩

/-- So does aborting the probe. -/
theorem Copy.abortLivenessProbe {s s₀ : Service} (c : Copy s s₀) :
    Copy s.abortLivenessProbe.1 s₀ := ⟨c.config, c.attempts, c.queue, c.publisher⟩

/-- What `set_status` leaves behind, relative to the entry the operation took. -/
theorem update_of_setStatus {s₀ s s' : Service} {status : ServiceStatus}
    (h : s.setStatus status = .ok s') (c : Copy s s₀) :
    Update s₀ s' status s.state.livenessProbe s₀.state.automaticRestartAttempts := by
  obtain ⟨api, hapi, hs'⟩ := bind_eq_ok.mp h
  cases hs'
  exact ⟨c.config, rfl, rfl, c.attempts, c.queue, api, hapi, congrArg (·.publish api) c.publisher⟩

/-- A signal that is sent is one effect, by either path. -/
theorem sendSignal_ok {os : Os} {process : ServiceProcess} {signal : Int} {out : List Effect}
    (h : process.sendSignal os signal = .ok out) : out = sentEffects process signal := by
  rw [ServiceProcess.sendSignal] at h
  rw [sentEffects]
  cases htx : process.monitorTx with
  | some tx =>
      rw [htx] at h
      obtain ⟨_, _, h⟩ := bind_eq_ok.mp h
      obtain ⟨_, _, h⟩ := bind_eq_ok.mp h
      exact (Except.ok.inj h).symm
  | none =>
      rw [htx] at h
      obtain ⟨_, _, h⟩ := bind_eq_ok.mp h
      obtain ⟨_, _, h⟩ := bind_eq_ok.mp h
      exact (Except.ok.inj h).symm

/-- `set_status(Running)` followed by `spawn_liveness_probe`. -/
theorem update_of_spawnProbe {s₀ s s' : Service} {process : ServiceProcess} {pty : Option Pty}
    (h : s.setStatus (.running process pty) = .ok s') (c : Copy s s₀) (task : AbortHandle)
    (name : String) :
    Update s₀ (s'.spawnLivenessProbe task name).1 (.running process pty)
        (probeHandle s₀.config s.state.livenessProbe task) s₀.state.automaticRestartAttempts
      ∧ (s'.spawnLivenessProbe task name).2 = probeEffects s₀.config task name process := by
  have hu := update_of_setStatus h c
  rw [Service.spawnLivenessProbe, probeHandle, probeEffects]
  rw [← hu.config_eq]
  cases hl : s'.config.liveness with
  | none => exact ⟨hu, rfl⟩
  | some probe =>
      refine ⟨⟨hu.config_eq, hu.status_eq, rfl, hu.attempts_eq, hu.queue_eq, hu.published⟩, ?_⟩
      show [Effect.probeSpawned task name s'.state.status.process?] = _
      rw [hu.status_eq]
      rfl

/-- The body of `freeze_service` freezes a running service and keeps any other. -/
theorem freezeEntry_ok {os : Os} {s s' : Service} {out : List Effect}
    (h : freezeEntry os s = .ok (s', out)) (shutdown : Bool) (name : String) :
    Transition shutdown name .freeze (some s) out (some s')
      ∨ Transition shutdown name .keep (some s) out (some s') := by
  rw [freezeEntry] at h
  dsimp only at h
  cases hst : s.state.status with
  | running process pty =>
      rw [hst] at h
      obtain ⟨sent, hsent, h⟩ := bind_eq_ok.mp h
      obtain ⟨s₁, hset, h⟩ := bind_eq_ok.mp h
      cases h
      rw [sendSignal_ok hsent]
      exact Or.inl (.freeze hst (update_of_setStatus hset (Copy.replaceStatus s _).abortLivenessProbe))
  | dummy => rw [hst] at h; exact nomatch h
  | stopped | frozen _ _ | stopping _ _ _ | exited _ | error _ =>
      rw [hst] at h
      obtain ⟨s₁, hset, h⟩ := bind_eq_ok.mp h
      cases h
      refine Or.inr (.keep ?_)
      rw [hst]
      exact update_of_setStatus hset (.replaceStatus s _)

/-- The body of `thaw_service` thaws a Frozen service and keeps any other. -/
theorem thawEntry_ok {os : Os} {name : String} {s s' : Service} {out : List Effect}
    (h : thawEntry os name s = .ok (s', out)) (shutdown : Bool) :
    Transition shutdown name .thaw (some s) out (some s')
      ∨ Transition shutdown name .keep (some s) out (some s') := by
  rw [thawEntry] at h
  dsimp only at h
  cases hst : s.state.status with
  | frozen process pty =>
      rw [hst] at h
      obtain ⟨sent, hsent, h⟩ := bind_eq_ok.mp h
      obtain ⟨s₁, hset, h⟩ := bind_eq_ok.mp h
      cases h
      obtain ⟨hu, hout⟩ := update_of_spawnProbe hset (.replaceStatus s .dummy)
        os.start.probe name
      rw [sendSignal_ok hsent, hout]
      exact Or.inl (.thaw hst hu)
  | dummy => rw [hst] at h; exact nomatch h
  | stopped | running _ _ | stopping _ _ _ | exited _ | error _ =>
      rw [hst] at h
      obtain ⟨s₁, hset, h⟩ := bind_eq_ok.mp h
      cases h
      refine Or.inr (.keep ?_)
      rw [hst]
      exact update_of_setStatus hset (.replaceStatus s _)

/-- What `start_service` returns tells how it left the entry. -/
def StartResult (s s' : Service) (result : Except ServiceError Unit) : Prop :=
  (result = .ok () ∧ ∃ process pty, s'.state.status = .running process pty)
    ∨ ∃ err, result = .error (.spawnFailed s.config.cmd err.text) ∧ s'.state.status = .error err

/-- The spawn of a start ends in a running service or one in Error. -/
theorem spawnInto_ok {os : StartOutcome} {name : String} {s s' : Service} {pty : Option Pty}
    {result : Except ServiceError Unit} {out : List Effect} (reason : StartReason) (s₀ : Service)
    (sink : List Effect) (h : spawnInto os name s pty = .ok (result, s', out))
    (hattempts : s.state.automaticRestartAttempts
      = restartAttempts reason s₀.state.automaticRestartAttempts)
    (hconfig : s.config = s₀.config) (hqueue : s.state.logs.queue = s₀.state.logs.queue)
    (hpub : s.state.serviceStatusPublisher = s₀.state.serviceStatusPublisher)
    (hpty : pty.isSome = s₀.config.pty) (hsink : ∀ e ∈ sink, isSink e = true) :
    Start name reason s₀ s.state.livenessProbe (.starting name reason :: sink ++ out) s'
      ∧ StartResult s₀ s' result := by
  -- `s` differs from `s₀` in the restart counter too, so it is its own copy first
  have hrebase : ∀ {t t' : Service} {status : ServiceStatus} {probe : Option AbortHandle},
      Update t t' status probe t.state.automaticRestartAttempts → t = s →
      Update s₀ t' status probe (restartAttempts reason s₀.state.automaticRestartAttempts) := by
    rintro t t' status probe hu rfl
    obtain ⟨api, hapi, hp⟩ := hu.published
    exact ⟨hu.config_eq.trans hconfig, hu.status_eq, hu.probe_eq, hu.attempts_eq.trans hattempts,
      hu.queue_eq.trans hqueue, api, hapi, hpub ▸ hp⟩
  rw [spawnInto] at h
  cases hspawn : spawnService os s.config pty.isSome with
  | ok process =>
      rw [hspawn] at h
      obtain ⟨s₁, hset, h⟩ := bind_eq_ok.mp h
      obtain ⟨hu, hout⟩ := update_of_spawnProbe hset (Copy.refl s) os.probe name
      have heq : ((Except.ok () : Except ServiceError Unit),
          (s₁.spawnLivenessProbe os.probe name).1,
          Effect.spawned name process :: (s₁.spawnLivenessProbe os.probe name).2)
          = (result, s', out) := Except.ok.inj h
      rw [hout, hconfig] at heq
      rw [hconfig] at hu
      obtain ⟨rfl, rfl, rfl⟩ := Prod.mk.injEq .. ▸ heq
      refine ⟨.running (hrebase hu rfl) hpty ?_ hsink, Or.inl ⟨rfl, process, pty, hu.status_eq⟩⟩
      rw [(spawnService_ok hspawn).2]
      cases pty <;> rfl
  | error err =>
      rw [hspawn] at h
      obtain ⟨s₁, hset, h⟩ := bind_eq_ok.mp h
      cases h
      have hu := update_of_setStatus hset (Copy.refl s)
      refine ⟨.failed (hrebase hu rfl) hsink, Or.inr ⟨err, ?_, hu.status_eq⟩⟩
      rw [hu.config_eq, hconfig]

/-- `start_service` on an entry, relative to the entry `s₀` it was copied from. -/
theorem startEntry_ok {os : StartOutcome} {name : String} {reason : StartReason}
    {s₀ s s' : Service} {result : Except ServiceError Unit} {out : List Effect}
    (h : startEntry os name reason s = .ok (result, s', out)) (c : Copy s s₀) :
    Start name reason s₀ s.state.livenessProbe out s' ∧ StartResult s₀ s' result := by
  rw [startEntry] at h
  dsimp only at h
  cases hpty : s.config.pty with
  | true =>
      have hpty₀ : s₀.config.pty = true := c.config ▸ hpty
      rw [hpty, if_pos rfl] at h
      cases hnew : os.pty with
      | ok pty =>
          rw [hnew] at h
          obtain ⟨⟨result, s₁, out₁⟩, hspawn, h⟩ := bind_eq_ok.mp h
          cases h
          have hattempts : restartAttempts reason s.state.automaticRestartAttempts
              = restartAttempts reason s₀.state.automaticRestartAttempts := by rw [c.attempts]
          have hstart := spawnInto_ok reason s₀
            [.logMessage name s!"[process connected to pty: {pty.path}]"] hspawn hattempts
            c.config c.queue c.publisher hpty₀.symm
          exact hstart fun e he => List.mem_singleton.mp he ▸ rfl
      | error err =>
          rw [hnew] at h
          obtain ⟨s₁, hset, h⟩ := bind_eq_ok.mp h
          cases h
          have hu := update_of_setStatus hset (Copy.refl _)
          obtain ⟨api, hapi, hp⟩ := hu.published
          refine ⟨.noPty ⟨hu.config_eq.trans c.config, hu.status_eq, hu.probe_eq, ?_,
            hu.queue_eq.trans c.queue, api, hapi, ?_⟩, Or.inr ⟨err, ?_, hu.status_eq⟩⟩
          · rw [hu.attempts_eq]
            show restartAttempts reason s.state.automaticRestartAttempts = _
            rw [c.attempts]
          · rw [hp]
            exact congrArg (·.publish api) c.publisher
          · rw [hu.config_eq]
            exact congrArg (fun config => Except.error (ServiceError.spawnFailed config.cmd err.text))
              c.config
  | false =>
      have hpty₀ : s₀.config.pty = false := c.config ▸ hpty
      rw [hpty, if_neg Bool.false_ne_true] at h
      obtain ⟨⟨logs, old, new⟩, hwriter, h⟩ := bind_eq_ok.mp h
      have hlogs : logs.queue = s.state.logs.queue := by
        unfold Logs.newWriter at hwriter
        cases hos : os.writer with
        | error e => rw [hos] at hwriter; exact nomatch hwriter
        | ok handle => rw [hos] at hwriter; cases hwriter; rfl
      obtain ⟨⟨result, s₁, out₁⟩, hspawn, h⟩ := bind_eq_ok.mp h
      cases h
      have hattempts : restartAttempts reason s.state.automaticRestartAttempts
          = restartAttempts reason s₀.state.automaticRestartAttempts := by rw [c.attempts]
      have hstart := spawnInto_ok reason s₀
        (abortTask .writerAborted old ++ [.writerSpawned new name]) hspawn hattempts
        c.config (hlogs.trans c.queue) c.publisher hpty₀.symm
      refine hstart fun e he => ?_
      rcases List.mem_append.mp he with habort | hnew
      · cases old with
        | none => exact nomatch habort
        | some handle => rw [List.mem_singleton.mp habort]; rfl
      · rw [List.mem_singleton.mp hnew]; rfl

/-! ## Inverting the operations of the manager -/

section Operations

variable {os : Os} {m m' : Machine} {credentials : Credentials} {name : String} {s : Service}

/-- Past its checks, `start_service` is `startEntry` on the entry it finds. -/
theorem startService_ok {os : StartOutcome} {reason : StartReason}
    {result : Except ServiceError Unit}
    (h : startService os m credentials name reason = .ok (result, m'))
    (hshut : m.mgr.shutdown = false) (hget : m.get? name = some s)
    (hcred : s.checkCredentials credentials = .ok ()) :
    ∃ s' out, startEntry os name reason s = .ok (result, s', out) ∧ m' = m.put name s' out := by
  rw [startService] at h
  rw [hshut, if_neg Bool.false_ne_true, hget] at h
  dsimp only at h
  rw [hcred] at h
  obtain ⟨⟨result, s', out⟩, hstart, h⟩ := bind_eq_ok.mp h
  cases h
  exact ⟨s', out, hstart, rfl⟩

/-- During the shutdown nothing is started. -/
theorem startService_shutdown {os : StartOutcome} {reason : StartReason}
    (hshut : m.mgr.shutdown = true) :
    startService os m credentials name reason = .ok (.error .shuttingDown, m) := by
  rw [startService]
  rw [if_pos hshut]

/-- A termination kills at once or sets a timer. -/
theorem graceKill_ok {process : ServiceProcess} {period : Nat} {pendingKill : Option PendingKill}
    {out : List Effect} (h : graceKill os name process period = .ok (pendingKill, out)) :
    Grace name process period pendingKill out := by
  rw [graceKill] at h
  by_cases hp : period = 0
  · rw [if_pos hp] at h
    obtain ⟨sent, hsent, h⟩ := bind_eq_ok.mp h
    cases h
    rw [sendSignal_ok hsent]
    exact .now hp
  · rw [if_neg hp] at h
    cases h
    exact .timer hp

/-- Terminating a service at rest keeps, removes or starts it. -/
theorem terminateDead_ok {requested : AfterStop} {result : Except ServiceError Unit}
    {status : ServiceStatus}
    (h : terminateDead os m credentials name requested status (s.replaceStatus .dummy)
      = .ok (result, m'))
    (hget : m.get? name = some s) (hst : s.state.status = status) (hdead : isDead status = true)
    (hstart : requested.isRestart = true →
      m.mgr.shutdown = false ∧ s.checkCredentials credentials = .ok ()) :
    Lifecycle m (.act name (.terminate requested)) m' := by
  subst hst
  cases requested with
  | stop =>
      obtain ⟨s', hset, h⟩ := bind_eq_ok.mp h
      cases h
      exact act_put hget (.stopDead hdead (update_of_setStatus hset (.replaceStatus s _)))
  | prune =>
      cases h
      exact act_remove hget (.pruneDead hdead)
  | restart reason =>
      obtain ⟨hshut, hcred⟩ := hstart rfl
      obtain ⟨s', out, hentry, rfl⟩ := startService_ok h hshut get?_put_self hcred
      rw [put_put]
      exact act_put hget
        (.restartDead hshut hdead (startEntry_ok hentry (.replaceStatus s .dummy)).1)

/-- `terminate_service_inner` is one step of the entry, provided a requested
    restart cannot be refused; it reports an error only for a dead service. -/
theorem terminateServiceInner_ok {requested : AfterStop} {result : Except ServiceError Unit}
    (h : terminateServiceInner os m credentials name requested = .ok (result, m'))
    (hget : m.get? name = some s)
    (hstart : requested.isRestart = true →
      m.mgr.shutdown = false ∧ s.checkCredentials credentials = .ok ()) :
    Lifecycle m (.act name (.terminate requested)) m'
      ∧ (isDead s.state.status = false → result = .ok ()) := by
  rw [terminateServiceInner] at h
  rw [hget] at h
  dsimp only at h
  cases hst : s.state.status with
  | stopped | exited _ | error _ =>
      rw [hst] at h
      exact ⟨terminateDead_ok h hget hst rfl hstart, fun hlive => nomatch hlive⟩
  | stopping process afterStop pendingKill =>
      rw [hst] at h
      obtain ⟨s', hset, h⟩ := bind_eq_ok.mp h
      cases h
      exact ⟨act_put hget
          (.merge (fun hr => (hstart hr).1) hst (update_of_setStatus hset (.replaceStatus s _))),
        fun _ => rfl⟩
  | frozen process pty =>
      rw [hst] at h
      obtain ⟨sent, hsent, h⟩ := bind_eq_ok.mp h
      obtain ⟨s', hset, h⟩ := bind_eq_ok.mp h
      cases h
      rw [sendSignal_ok hsent]
      exact ⟨act_put hget (.terminateFrozen (fun hr => (hstart hr).1) hst
        (update_of_setStatus hset (.replaceStatus s _))), fun _ => rfl⟩
  | running process pty =>
      rw [hst] at h
      obtain ⟨sent, hsent, h⟩ := bind_eq_ok.mp h
      obtain ⟨⟨pendingKill, kill⟩, hgrace, h⟩ := bind_eq_ok.mp h
      obtain ⟨s', hset, h⟩ := bind_eq_ok.mp h
      cases h
      rw [sendSignal_ok hsent]
      exact ⟨act_put hget (.terminateRunning (fun hr => (hstart hr).1) hst (graceKill_ok hgrace)
        (update_of_setStatus hset (Copy.replaceStatus s _).abortLivenessProbe)), fun _ => rfl⟩
  | dummy => rw [hst] at h; exact nomatch h

/-- The check shared by every request that changes a service. -/
def MayTouch (m : Machine) (credentials : Credentials) (name : String) : Prop :=
  name ≠ bootstrapName ∧ ∃ s, m.get? name = some s ∧ s.checkCredentials credentials = .ok ()

/-- A restart on behalf of the owner is not refused once it got past the shutdown. -/
theorem permitted_owner {requested : AfterStop} (hshut : ¬ (m.mgr.shutdown ∧ requested.isRestart)) :
    requested.isRestart = true →
      m.mgr.shutdown = false ∧ s.checkCredentials s.config.credentials = .ok () :=
  fun hrestart => ⟨Bool.eq_false_iff.mpr fun htrue => hshut ⟨htrue, hrestart⟩,
    Service.checkCredentials_iff.mpr (Or.inr rfl)⟩

/-- `stop_service_cmd` refuses and leaves everything as it was, or terminates an
    entry that the caller may touch, on behalf of its owner. -/
theorem stopServiceCmd_ok {requested : AfterStop} {result : Except ServiceError Unit}
    (h : stopServiceCmd os m credentials name requested = .ok (result, m')) :
    (m' = m ∧ ∃ e, result = .error e)
      ∨ MayTouch m credentials name ∧ Lifecycle m (.act name (.terminate requested)) m'
        ∧ ((∃ e, result = .error e) → ∃ s, m.get? name = some s ∧ isDead s.state.status = true) := by
  rw [stopServiceCmd_eq] at h
  cases hget : getService m credentials name with
  | error e => rw [hget] at h; cases h; exact Or.inl ⟨rfl, e, rfl⟩
  | ok s =>
      rw [hget] at h
      dsimp only at h
      obtain ⟨hs, hcred⟩ := getService_iff.mp hget
      by_cases hboot : name = bootstrapName
      · rw [if_pos hboot] at h; cases h; exact Or.inl ⟨rfl, _, rfl⟩
      rw [if_neg hboot] at h
      by_cases hshut : m.mgr.shutdown ∧ requested.isRestart
      · rw [if_pos hshut] at h; cases h; exact Or.inl ⟨rfl, _, rfl⟩
      rw [if_neg hshut] at h
      obtain ⟨hstep, hresult⟩ := terminateServiceInner_ok h hs (permitted_owner hshut)
      refine Or.inr ⟨⟨hboot, s, hs, hcred⟩, hstep, fun ⟨e, he⟩ => ⟨s, hs, ?_⟩⟩
      by_contra hlive
      rw [hresult (Bool.eq_false_iff.mpr hlive)] at he
      exact nomatch he

/-- A request on one entry that is not about terminating it. -/
def onEntry (m : Machine) (credentials : Credentials) (name : String)
    (change : Service → Except Panic (Service × List Effect)) :
    Except Panic (Outcome (Except ServiceError Unit)) :=
  match getServiceMut m credentials name with
  | .error e => .ok (.error e, m)
  | .ok service => do
      let (service, out) ← change service
      return (.ok (), m.put name service out)

theorem freezeService_eq :
    freezeService os m credentials name = onEntry m credentials name (freezeEntry os) := rfl

theorem thawService_eq :
    thawService os m credentials name = onEntry m credentials name (thawEntry os name) := rfl

section OnEntry

variable {change : Service → Except Panic (Service × List Effect)} {result : Except ServiceError Unit}

/-- The request is refused, or the entry is changed. -/
theorem onEntry_cases (h : onEntry m credentials name change = .ok (result, m')) :
    (∃ e, getServiceMut m credentials name = .error e ∧ result = .error e ∧ m' = m)
      ∨ ∃ s s' out, getServiceMut m credentials name = .ok s ∧ change s = .ok (s', out)
        ∧ result = .ok () ∧ m' = m.put name s' out := by
  rw [onEntry] at h
  cases hget : getServiceMut m credentials name with
  | error e =>
      rw [hget] at h
      cases h
      exact Or.inl ⟨e, rfl, rfl, rfl⟩
  | ok s =>
      rw [hget] at h
      obtain ⟨⟨s', out⟩, hentry, h⟩ := bind_eq_ok.mp h
      cases h
      exact Or.inr ⟨s, s', out, rfl, hentry, rfl, rfl⟩

/-- An operation on one entry is refused, keeps it, or is its transition. -/
theorem onEntry_ok {action : Action}
    (hchange : ∀ {s s' out}, change s = .ok (s', out) →
      Transition m.mgr.shutdown name action (some s) out (some s')
        ∨ Transition m.mgr.shutdown name .keep (some s) out (some s'))
    (h : onEntry m credentials name change = .ok (result, m')) :
    m' = m ∨ MayTouch m credentials name
      ∧ (Lifecycle m (.act name action) m' ∨ Lifecycle m (.act name .keep) m') := by
  rcases onEntry_cases h with ⟨_, -, -, rfl⟩ | ⟨s, s', out, hget, hentry, -, rfl⟩
  · exact Or.inl rfl
  · obtain ⟨hboot, hs, hcred⟩ := getServiceMut_iff.mp hget
    exact Or.inr ⟨⟨hboot, s, hs, hcred⟩, (hchange hentry).imp (act_put hs) (act_put hs)⟩

end OnEntry

/-- `freeze_service` is refused, keeps the entry or freezes it. -/
theorem freezeService_ok {result : Except ServiceError Unit}
    (h : freezeService os m credentials name = .ok (result, m')) :
    m' = m ∨ MayTouch m credentials name
      ∧ (Lifecycle m (.act name .freeze) m' ∨ Lifecycle m (.act name .keep) m') := by
  rw [freezeService_eq] at h
  exact onEntry_ok (fun hentry => freezeEntry_ok hentry m.mgr.shutdown name) h

/-- `thaw_service` is refused, keeps the entry or thaws it. -/
theorem thawService_ok {result : Except ServiceError Unit}
    (h : thawService os m credentials name = .ok (result, m')) :
    m' = m ∨ MayTouch m credentials name
      ∧ (Lifecycle m (.act name .thaw) m' ∨ Lifecycle m (.act name .keep) m') := by
  rw [thawService_eq] at h
  exact onEntry_ok (fun hentry => thawEntry_ok hentry m.mgr.shutdown) h

/-- Emitting signals to the process of an entry is a step of that entry. -/
theorem act_signal {process : ServiceProcess} {out : List Effect}
    (hget : m.get? name = some s) (hp : s.state.status.process? = some process)
    (hout : (∃ cmd, out = [.monitor process cmd]) ∨ ∃ sig, out = sentEffects process sig) :
    Lifecycle m (.act name .signal) (m.emit out) :=
  put_same hget ▸ act_put hget (.signal hp hout)

/-- `force_kill_service` does nothing unless the token is that of the termination under way.
    -/
theorem forceKillService_ok {token : TerminationToken}
    (h : forceKillService os m name token = .ok ((), m')) :
    m' = m ∨ ∃ s process afterStop kill, m.get? name = some s
      ∧ s.state.status = .stopping process afterStop (some kill) ∧ kill.token = token
      ∧ m' = m.emit (sentEffects process SIGKILL) := by
  rw [forceKillService] at h
  cases hget : m.get? name with
  | none => rw [hget] at h; cases h; exact Or.inl rfl
  | some s =>
      rw [hget] at h
      dsimp only at h
      split at h
      · rename_i process afterStop kill hst
        by_cases htoken : kill.token = token
        · rw [if_pos htoken] at h
          obtain ⟨sent, hsent, h⟩ := bind_eq_ok.mp h
          cases h
          rw [sendSignal_ok hsent]
          exact Or.inr ⟨s, process, afterStop, kill, rfl, hst, htoken, rfl⟩
        · rw [if_neg htoken] at h; cases h; exact Or.inl rfl
      · cases h; exact Or.inl rfl

/-- All that a notification does: the lookup fails, there is nothing to do, or the
    command goes to the monitor of the process that runs. -/
theorem notifyPty_cases {cmd : MonitorCommand} {result : Except ServiceError Unit}
    (h : notifyPty cmd os m credentials name = .ok (result, m')) :
    (∃ e, getServiceMut m credentials name = .error e ∧ result = .error e ∧ m' = m)
      ∨ ∃ s, getServiceMut m credentials name = .ok s ∧ result = .ok ()
        ∧ (m' = m ∨ ∃ process, s.state.status.process? = some process
          ∧ process.monitorTx.isSome ∧ m' = m.emit [.monitor process cmd]) := by
  rw [notifyPty] at h
  cases hget : getServiceMut m credentials name with
  | error e => rw [hget] at h; cases h; exact Or.inl ⟨e, rfl, rfl, rfl⟩
  | ok s =>
      rw [hget] at h
      dsimp only at h
      cases hst : s.state.status with
      | running process pty | frozen process pty =>
          rw [hst] at h
          dsimp only at h
          cases htx : process.monitorTx with
          | none => rw [htx] at h; cases h; exact Or.inr ⟨s, rfl, rfl, Or.inl rfl⟩
          | some tx =>
              rw [htx] at h
              obtain ⟨_, _, h⟩ := bind_eq_ok.mp h
              obtain ⟨_, _, h⟩ := bind_eq_ok.mp h
              cases h
              exact Or.inr ⟨s, rfl, rfl, Or.inr ⟨process, by rw [hst]; rfl, by rw [htx]; rfl, rfl⟩⟩
      | stopped | stopping _ _ _ | exited _ | error _ =>
          rw [hst] at h
          cases h
          exact Or.inr ⟨s, rfl, rfl, Or.inl rfl⟩
      | dummy => rw [hst] at h; exact nomatch h

/-- A notification is refused or sends its command. -/
theorem notifyPty_ok {cmd : MonitorCommand} {result : Except ServiceError Unit}
    (h : notifyPty cmd os m credentials name = .ok (result, m')) :
    m' = m ∨ MayTouch m credentials name ∧ Lifecycle m (.act name .signal) m' := by
  rcases notifyPty_cases h with ⟨_, -, -, hsame⟩ | ⟨s, hget, -, hsame | ⟨process, hp, -, rfl⟩⟩
  · exact Or.inl hsame
  · exact Or.inl hsame
  · obtain ⟨hboot, hs, hcred⟩ := getServiceMut_iff.mp hget
    exact Or.inr ⟨⟨hboot, s, hs, hcred⟩, act_signal hs hp (Or.inl ⟨cmd, rfl⟩)⟩

/-- The `send_signal` request sends a valid signal, or nothing. -/
theorem sendSignalRequest_ok {sig : Int} {result : Except ServiceError Unit}
    (h : sendSignal os m credentials name sig = .ok (result, m')) :
    m' = m ∨ MayTouch m credentials name ∧ Lifecycle m (.act name .signal) m' := by
  rw [sendSignal] at h
  cases hget : getServiceMut m credentials name with
  | error e => rw [hget] at h; cases h; exact Or.inl rfl
  | ok s =>
      rw [hget] at h
      obtain ⟨hboot, hs, hcred⟩ := getServiceMut_iff.mp hget
      dsimp only at h
      by_cases hsig : sig ≤ 0 ∨ sig ≥ 32
      · rw [if_pos hsig] at h; cases h; exact Or.inl rfl
      · rw [if_neg hsig] at h
        have hsent : ∀ process, s.state.status.process? = some process →
            (do let sent ← process.sendSignal os sig; return (.ok (), m.emit sent)
              : Except Panic (Outcome (Except ServiceError Unit))) = .ok (result, m') →
            MayTouch m credentials name ∧ Lifecycle m (.act name .signal) m' := by
          intro process hp h
          obtain ⟨sent, hsend, h⟩ := bind_eq_ok.mp h
          cases h
          rw [sendSignal_ok hsend]
          exact ⟨⟨hboot, s, hs, hcred⟩,
            act_signal hs hp (Or.inr ⟨sig, rfl⟩)⟩
        cases hst : s.state.status with
        | running process _ | frozen process _ | stopping process _ _ =>
            rw [hst] at h
            exact Or.inr (hsent process (by rw [hst]; rfl) h)
        | stopped | exited _ | error _ => rw [hst] at h; cases h; exact Or.inl rfl
        | dummy => rw [hst] at h; exact nomatch h

/-- `create_service` refuses, or adds a fresh entry with the given configuration. -/
theorem createService_ok {config : ServiceConfig} {result : Except ServiceError Unit}
    (h : createService m name config = (result, m')) :
    (m' = m ∧ ∃ e, result = .error e)
      ∨ result = .ok () ∧ m.mgr.shutdown = false ∧ m.get? name = none
        ∧ ∃ s, Created s ∧ s.config = config ∧ m' = m.put name s [] := by
  rw [createService] at h
  by_cases hshut : m.mgr.shutdown = true
  · rw [if_pos hshut] at h; cases h; exact Or.inl ⟨rfl, _, rfl⟩
  rw [if_neg hshut] at h
  by_cases hempty : name = ""
  · rw [if_pos hempty] at h; cases h; exact Or.inl ⟨rfl, _, rfl⟩
  rw [if_neg hempty] at h
  by_cases hlong : name.utf8ByteSize > 255
  · rw [if_pos hlong] at h; cases h; exact Or.inl ⟨rfl, _, rfl⟩
  rw [if_neg hlong] at h
  cases hvalid : config.validate with
  | error e => rw [hvalid] at h; cases h; exact Or.inl ⟨rfl, _, rfl⟩
  | ok u =>
      rw [hvalid] at h
      dsimp only at h
      cases hget : m.get? name with
      | some s => rw [hget] at h; cases h; exact Or.inl ⟨rfl, _, rfl⟩
      | none =>
          rw [hget] at h
          cases h
          exact Or.inr ⟨rfl, Bool.eq_false_iff.mpr hshut, rfl, _, ⟨rfl, rfl, rfl, rfl⟩, rfl, rfl⟩

/-! ## Shutdown and SIGCHLD -/

/-- Stopping does not look at the shutdown flag. -/
theorem transition_stop_any {shutdown : Bool} {entry entry' : Option Service} {out : List Effect}
    (h : Transition shutdown name (.terminate .stop) entry out entry') (shutdown' : Bool) :
    Transition shutdown' name (.terminate .stop) entry out entry' := by
  cases h with
  | stopDead hdead hu => exact .stopDead hdead hu
  | merge _ hst hu => exact .merge nofun hst hu
  | terminateFrozen _ hst hu => exact .terminateFrozen nofun hst hu
  | terminateRunning _ hst hgrace hu => exact .terminateRunning nofun hst hgrace hu

/-- Stopping a service leaves it settled. -/
theorem transition_stop_settled {shutdown : Bool} {entry entry' : Option Service}
    {out : List Effect} (h : Transition shutdown name (.terminate .stop) entry out entry') :
    ∃ s', entry' = some s' ∧ isSettled s'.state.status = true := by
  cases h with
  | stopDead hdead hu =>
      refine ⟨_, rfl, ?_⟩
      rw [hu.status_eq]
      revert hdead
      cases Service.state _ |>.status <;> simp [isDead, isSettled]
  | @merge _ s' _ afterStop _ _ _ _ hu =>
      refine ⟨s', rfl, ?_⟩
      rw [hu.status_eq]
      cases afterStop <;> rfl
  | terminateFrozen _ _ hu | terminateRunning _ _ _ hu => exact ⟨_, rfl, by rw [hu.status_eq]; rfl⟩

/-- The flag and the entries are written independently. -/
theorem raiseShutdown_write (m : Machine) (name : String) (entry : Option Service)
    (out : List Effect) :
    write (raiseShutdown m) name entry out = raiseShutdown (write m name entry out) := by
  cases entry <;> rfl

/-- `stop_all_services` terminates each entry once, in key order; raising the
    shutdown flag before or after makes no difference. -/
theorem stopEach_ok (names : List String) (hnames : ∀ name ∈ names, (m.get? name).isSome)
    (h : names.foldlM (fun m name => do
      let (_, m) ← terminateServiceInner os m .root name .stop
      return m) (raiseShutdown m) = .ok m') :
    ∃ m₀, m' = raiseShutdown m₀
      ∧ Run Lifecycle m (names.map (fun name => .act name (.terminate .stop))) m₀ := by
  induction names generalizing m with
  | nil => cases h; exact ⟨m, rfl, .nil m⟩
  | cons name names ih =>
      rw [List.foldlM_cons] at h
      obtain ⟨m₁, hfirst, hrest⟩ := bind_eq_ok.mp h
      obtain ⟨⟨result, m₂⟩, hinner, h⟩ := bind_eq_ok.mp hfirst
      cases h
      obtain ⟨s, hget⟩ := Option.isSome_iff_exists.mp (hnames name List.mem_cons_self)
      obtain ⟨hstep, -⟩ := terminateServiceInner_ok hinner hget nofun
      obtain ⟨out, entry, ht, rfl⟩ := hstep.act_inv
      rw [raiseShutdown_write] at hrest
      have hstep : Lifecycle m (.act name (.terminate .stop)) (write m name entry out) :=
        .act (transition_stop_any ht _)
      obtain ⟨s', rfl, -⟩ := transition_stop_settled ht
      have hothers : ∀ other ∈ names, ((write m name (some s') out).get? other).isSome := by
        intro other hmem
        rw [get?_write]
        by_cases hname : name = other
        · rw [if_pos hname, Option.isSome_some]
        · rw [if_neg hname]; exact hnames other (List.mem_cons_of_mem _ hmem)
      obtain ⟨m₀, hm', hrun⟩ := ih hothers hrest
      exact ⟨m₀, hm', .cons hstep hrun⟩

/-- After a run of stops an entry is settled, or was not among those stopped. -/
theorem stops_settled {names : List String} {s : Service}
    (h : Run Lifecycle m (names.map (fun name => .act name (.terminate .stop))) m')
    (hget : m'.get? name = some s) :
    isSettled s.state.status = true ∨ (name ∉ names ∧ m.get? name = some s) := by
  induction names generalizing m with
  | nil => rw [h.eq_of_nil]; exact Or.inr ⟨List.not_mem_nil, hget⟩
  | cons first names ih =>
      cases h with
      | cons hstep hrest =>
          rcases ih hrest with hsettled | ⟨hnot, hmid⟩
          · exact Or.inl hsettled
          · obtain ⟨out, entry, ht, rfl⟩ := hstep.act_inv
            obtain ⟨s', rfl, hsettled⟩ := transition_stop_settled ht
            rw [get?_write] at hmid
            by_cases hname : first = name
            · rw [if_pos hname] at hmid
              cases hmid
              exact Or.inl hsettled
            · rw [if_neg hname] at hmid
              refine Or.inr ⟨fun hmem => ?_, hmid⟩
              rcases List.mem_cons.mp hmem with heq | hmem
              · exact hname heq.symm
              · exact hnot hmem

/-- `begin_shutdown` happens once: it stops every service and raises the flag. -/
theorem beginShutdown_ok (h : beginShutdown os m = .ok m') :
    (m.mgr.shutdown = true ∧ m' = m)
      ∨ m.mgr.shutdown = false ∧ Run Lifecycle m
        (m.mgr.services.keys.map (fun name => .act name (.terminate .stop)) ++ [.shutdown]) m' := by
  rw [beginShutdown] at h
  by_cases hshut : m.mgr.shutdown = true
  · rw [if_pos hshut] at h
    cases h
    exact Or.inl ⟨hshut, rfl⟩
  · rw [if_neg hshut] at h
    obtain ⟨m₀, rfl, hrun⟩ := stopEach_ok _ (fun name => mem_keys_iff.mp) h
    have hflag : m₀.mgr.shutdown = false := by
      refine hrun.invariant_of (I := fun m => m.mgr.shutdown = false)
        (Q := fun label => ∃ name, label = .act name (.terminate .stop)) ?_ ?_
        (Bool.eq_false_iff.mpr hshut)
      · rintro m label m' ⟨name, rfl⟩ hflag hstep
        obtain ⟨out, entry, -, rfl⟩ := hstep.act_inv
        rw [write_shutdown]
        exact hflag
      · intro label hmem
        obtain ⟨name, -, rfl⟩ := List.mem_map.mp hmem
        exact ⟨name, rfl⟩
    refine Or.inr ⟨Bool.eq_false_iff.mpr hshut, hrun.snoc (.shutdown hflag fun name s hget => ?_)⟩
    rcases stops_settled hrun hget with hsettled | ⟨hnot, hbefore⟩
    · exact hsettled
    · exact absurd (mem_keys_iff.mpr (by rw [hbefore]; rfl)) hnot

/-- One reaped child: a step of the entry that holds it, or nobody's child. -/
theorem reapChild_ok {reap : Reap} (h : reapChild reap m = .ok m') :
    Lifecycle m (.foreign reap.pid) m' ∨ ∃ name, Lifecycle m (.act name (.reap reap.pid)) m' := by
  obtain ⟨pid, status, start⟩ := reap
  rw [reapChild] at h
  dsimp only at h
  cases hfind : (m.emit [.reaped pid status]).mgr.services.toList.find?
      (fun entry => isMain entry.2.state.status pid) with
  | none =>
      rw [hfind] at h
      cases h
      refine Or.inl (.foreign fun name s process hget hp hpid => ?_)
      have hmem : (name, s) ∈ m.mgr.services.toList :=
        Std.ExtTreeMap.mem_toList_iff_getElem?_eq_some.mpr hget
      refine List.find?_eq_none.mp hfind _ hmem ?_
      rw [isMain]
      rw [hp]
      exact beq_iff_eq.mpr hpid
  | some entry =>
      obtain ⟨name, s⟩ := entry
      rw [hfind] at h
      have hget : m.get? name = some s :=
        Std.ExtTreeMap.mem_toList_iff_getElem?_eq_some.mp (List.mem_of_find?_eq_some hfind)
      have hmain : isMain s.state.status pid = true :=
        List.find?_some (p := fun (entry : String × Service) => isMain entry.2.state.status pid)
          hfind
      refine Or.inr ⟨name, ?_⟩
      dsimp only at h
      cases hst : s.state.status with
      | running process pty | frozen process pty =>
          rw [hst] at h hmain
          obtain rfl : process.mainPid = pid := beq_iff_eq.mp hmain
          obtain ⟨s', hset, h⟩ := bind_eq_ok.mp h
          cases h
          have hu := update_of_setStatus hset (Copy.refl s)
          have hprobe : s'.abortLivenessProbe.2 = abortTask .probeAborted s.state.livenessProbe :=
            congrArg (abortTask .probeAborted) hu.probe_eq
          rw [emit_put, hprobe]
          have hlive : s.state.status = .running process pty
              ∨ s.state.status = .frozen process pty := by simp [hst]
          refine act_put hget (.exited hlive ?_)
          exact ⟨hu.config_eq, hu.status_eq, rfl, hu.attempts_eq, hu.queue_eq, hu.published⟩
      | stopping process afterStop pendingKill =>
          rw [hst] at h hmain
          obtain rfl : process.mainPid = pid := beq_iff_eq.mp hmain
          cases afterStop with
          | stop =>
              obtain ⟨s', hset, h⟩ := bind_eq_ok.mp h
              cases h
              rw [emit_put]
              exact act_put hget (.stopped hst
                (update_of_setStatus hset (Copy.replaceStatus s _).abortLivenessProbe))
          | prune =>
              dsimp only at h
              rw [get?_emit, hget] at h
              cases h
              rw [emit_remove]
              exact act_remove hget (.pruned hst)
          | restart reason =>
              obtain ⟨⟨result, m₁⟩, hstart, h⟩ := bind_eq_ok.mp h
              cases h
              rw [emit_put] at hstart
              by_cases hshut : m.mgr.shutdown = true
              · rw [startService_shutdown (m := m.put _ _ _) hshut] at hstart
                cases hstart
                exact act_put hget (.stranded hshut hst rfl rfl)
              · have hcred : s.checkCredentials s.config.credentials = .ok () :=
                  Service.checkCredentials_iff.mpr (Or.inr rfl)
                obtain ⟨s', out, hentry, rfl⟩ := startService_ok hstart
                  (Bool.eq_false_iff.mpr hshut) get?_put_self hcred
                rw [put_put]
                exact act_put hget (.restarted (Bool.eq_false_iff.mpr hshut) hst
                  (startEntry_ok hentry (Copy.replaceStatus s _).abortLivenessProbe).1)
      | stopped | exited _ | error _ | dummy => rw [hst] at hmain; exact nomatch hmain

/-- The `waitpid` loop is a run that reaps the children one by one. -/
theorem reapAll_ok (reaps : List Reap)
    (h : reaps.foldlM (fun m reap => reapChild reap m) m = .ok m') :
    ∃ labels, Run Lifecycle m labels m' ∧ ∀ label ∈ labels, ∃ reap ∈ reaps,
      label = .foreign reap.pid ∨ ∃ name, label = .act name (.reap reap.pid) := by
  induction reaps generalizing m with
  | nil => cases h; exact ⟨[], .nil _, nofun⟩
  | cons reap reaps ih =>
      rw [List.foldlM_cons] at h
      obtain ⟨m₁, hfirst, hrest⟩ := bind_eq_ok.mp h
      obtain ⟨labels, hrun, hlabels⟩ := ih hrest
      have hcons : ∀ label, Lifecycle m label m₁ →
          (label = .foreign reap.pid ∨ ∃ name, label = .act name (.reap reap.pid)) →
          ∃ labels, Run Lifecycle m labels m' ∧ ∀ label ∈ labels, ∃ reap' ∈ reap :: reaps,
            label = .foreign reap'.pid ∨ ∃ name, label = .act name (.reap reap'.pid) := by
        intro label hstep hlabel
        refine ⟨label :: labels, .cons hstep hrun, List.forall_mem_cons.mpr
          ⟨⟨reap, List.mem_cons_self, hlabel⟩, fun label hmem => ?_⟩⟩
        obtain ⟨reap', hreap', hl⟩ := hlabels label hmem
        exact ⟨reap', List.mem_cons_of_mem _ hreap', hl⟩
      rcases reapChild_ok hfirst with hstep | ⟨name, hstep⟩
      · exact hcons _ hstep (Or.inl rfl)
      · exact hcons _ hstep (Or.inr ⟨name, rfl⟩)

/-- When `waitpid` has no more to tell, the loop is over. -/
theorem waitChildren_ok (h : waitChildren os m = .ok m') :
    os.reaped.foldlM (fun m reap => reapChild reap m) m = .ok m' := by
  obtain ⟨m₁, hfold, h⟩ := bind_eq_ok.mp h
  cases hwait : os.waitError with
  | none => rw [hwait] at h; cases h; exact hfold
  | some e =>
      rw [hwait] at h
      dsimp only at h
      by_cases hchild : e.rawOsError = some ECHILD
      · rw [if_pos hchild] at h; cases h; exact hfold
      · rw [if_neg hchild] at h; exact nomatch h

/-- `handle_signal` reaps on SIGCHLD, shuts down on SIGTERM and SIGINT, and
    ignores every other signal. -/
theorem handleSignal_ok {signo : Int} (h : handleSignal os m signo = .ok m') :
    (signo = SIGCHLD ∧ os.reaped.foldlM (fun m reap => reapChild reap m) m = .ok m')
      ∨ ((signo = SIGTERM ∨ signo = SIGINT) ∧ beginShutdown os m = .ok m')
      ∨ (signo ≠ SIGCHLD ∧ ¬ (signo = SIGTERM ∨ signo = SIGINT) ∧ m' = m) := by
  obtain ⟨m₁, hreap, h⟩ := bind_eq_ok.mp h
  by_cases hchld : signo = SIGCHLD
  · subst hchld
    rw [if_pos rfl] at hreap
    rw [if_neg (by decide)] at h
    cases h
    exact Or.inl ⟨rfl, waitChildren_ok hreap⟩
  · rw [if_neg hchld] at hreap
    cases hreap
    by_cases hterm : signo = SIGTERM ∨ signo = SIGINT
    · rw [if_pos hterm] at h; exact Or.inr (Or.inl ⟨hterm, h⟩)
    · rw [if_neg hterm] at h; cases h; exact Or.inr (Or.inr ⟨hchld, hterm, rfl⟩)

end Operations

end BeamOperations
