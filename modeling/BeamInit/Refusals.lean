import BeamInit.ProbeTasks

/-! # Refusals — what a failed command leaves behind

    An operation takes the status out of its service before it calls functions
    that may return early.  Every early return is taken before that, or puts the
    status back: a command that fails has changed nothing, unless it got as far as
    spawning a process, and then the service it names is in Error. -/

namespace BeamRefusals

open BeamApi BeamOs BeamLogs BeamPublisher BeamService BeamManager BeamCommands BeamMainLoop
open BeamLifecycle BeamOperations BeamRefinement BeamConsistency BeamChannel BeamTickets BeamNetwork
open BeamStaleProbes BeamProbeTasks Runs Fence

/-! ## Errors of the lookups and of the checks -/

def isSpawnFailed : ServiceError → Bool
  | .spawnFailed .. => true
  | _ => false

/-- A lookup fails for another reason than a spawn. -/
theorem getService_refuses {m : Machine} {credentials : Credentials} {name : String}
    {e : ServiceError} (h : getService m credentials name = .error e) : isSpawnFailed e = false := by
  unfold getService at h
  cases hget : m.get? name with
  | none => rw [hget] at h; cases h; rfl
  | some s =>
      rw [hget] at h
      dsimp only at h
      unfold Service.checkCredentials at h
      by_cases hcred : credentials.uid ≠ 0 ∧ credentials.uid ≠ s.config.credentials.uid
      · rw [if_pos hcred] at h; cases h; rfl
      · rw [if_neg hcred] at h; exact nomatch h

/-- The mutable lookup fails for another reason than a spawn. -/
theorem getServiceMut_refuses {m : Machine} {credentials : Credentials} {name : String}
    {e : ServiceError} (h : getServiceMut m credentials name = .error e) :
    isSpawnFailed e = false := by
  rw [getServiceMut_eq] at h
  by_cases hboot : name = bootstrapName
  · rw [if_pos hboot] at h; cases h; rfl
  · rw [if_neg hboot] at h; exact getService_refuses h

/-- A refused configuration is an invalid request. -/
theorem validate_refuses {config : ServiceConfig} {e : ServiceError}
    (h : config.validate = .error e) : isSpawnFailed e = false := by
  have hentries : ∀ entries : List (OsString × OsString),
      entries.forM validateEntry = .error e → isSpawnFailed e = false := by
    intro entries
    induction entries with
    | nil => exact fun h => nomatch h
    | cons entry entries ih =>
        intro h
        change (validateEntry entry >>= fun _ => entries.forM validateEntry) = _ at h
        cases hfirst : validateEntry entry with
        | ok u => rw [hfirst] at h; exact ih h
        | error e' =>
            rw [hfirst] at h
            cases h
            rw [validateEntry] at hfirst
            split at hfirst
            · cases hfirst; rfl
            · split at hfirst
              · cases hfirst; rfl
              · split at hfirst
                · cases hfirst; rfl
                · exact nomatch hfirst
  exact hentries _ h

/-- Refused: an error other than a failed spawn, and everything as it was. -/
structure Refused (e : ServiceError) (m m' : Machine) : Prop where
  same : m' = m
  kind : isSpawnFailed e = false

section Operations

variable {os : Os} {m m' : Machine} {credentials : Credentials} {name : String} {e : ServiceError}

/-- A refused creation leaves the machine as it was. -/
theorem createService_refuses {config : ServiceConfig}
    (h : createService m name config = (.error e, m')) : Refused e m m' := by
  unfold createService at h
  by_cases hshut : m.mgr.shutdown = true
  · rw [if_pos hshut] at h; cases h; exact ⟨rfl, rfl⟩
  rw [if_neg hshut] at h
  by_cases hempty : name = ""
  · rw [if_pos hempty] at h; cases h; exact ⟨rfl, rfl⟩
  rw [if_neg hempty] at h
  by_cases hlong : name.utf8ByteSize > 255
  · rw [if_pos hlong] at h; cases h; exact ⟨rfl, rfl⟩
  rw [if_neg hlong] at h
  cases hvalid : config.validate with
  | error e' => rw [hvalid] at h; cases h; exact ⟨rfl, validate_refuses hvalid⟩
  | ok u =>
      rw [hvalid] at h
      dsimp only at h
      cases hget : m.get? name with
      | some s => rw [hget] at h; cases h; exact ⟨rfl, rfl⟩
      | none => rw [hget] at h; exact nomatch h

/-- An environment that cannot be built is refused before anything is created. -/
theorem serviceEnvironment_refuses {env : BTreeMap String String}
    (h : serviceEnvironment os m credentials name env = .error e) : isSpawnFailed e = false := by
  rw [serviceEnvironment] at h
  by_cases hboot : name = bootstrapName
  · rw [if_pos hboot] at h; exact nomatch h
  · rw [if_neg hboot] at h
    cases henv : os.buildEnvironment credentials.uid m.mgr.userEnvFiles with
    | error err => rw [henv] at h; cases h; rfl
    | ok env => rw [henv] at h; exact nomatch h

/-- An operation that refuses has not written its entry. -/
theorem onEntry_refuses {change : Service → Except Panic (Service × List Effect)}
    (h : onEntry m credentials name change = .ok (.error e, m')) : Refused e m m' := by
  rcases onEntry_cases h with ⟨e', hget, hresult, hsame⟩ | ⟨_, _, _, -, -, hdone, -⟩
  · cases hresult
    exact ⟨hsame, getServiceMut_refuses hget⟩
  · cases hdone

/-- A refused freeze leaves the machine as it was. -/
theorem freezeService_refuses (h : freezeService os m credentials name = .ok (.error e, m')) :
    Refused e m m' := by
  rw [freezeService_eq] at h
  exact onEntry_refuses h

/-- A refused thaw leaves the machine as it was. -/
theorem thawService_refuses (h : thawService os m credentials name = .ok (.error e, m')) :
    Refused e m m' := by
  rw [thawService_eq] at h
  exact onEntry_refuses h

/-- A refused notification leaves the machine as it was. -/
theorem notifyPty_refuses {cmd : MonitorCommand}
    (h : notifyPty cmd os m credentials name = .ok (.error e, m')) : Refused e m m' := by
  rcases notifyPty_cases h with ⟨e', hget, he, hsame⟩ | ⟨_, -, hdone, -⟩
  · cases he
    exact ⟨hsame, getServiceMut_refuses hget⟩
  · exact nomatch hdone

/-- A refused signal leaves the machine as it was. -/
theorem sendSignal_refuses {sig : Int}
    (h : BeamManager.sendSignal os m credentials name sig = .ok (.error e, m')) : Refused e m m' := by
  unfold BeamManager.sendSignal at h
  cases hget : getServiceMut m credentials name with
  | error e' => rw [hget] at h; cases h; exact ⟨rfl, getServiceMut_refuses hget⟩
  | ok s =>
      rw [hget] at h
      dsimp only at h
      by_cases hsig : sig ≤ 0 ∨ sig ≥ 32
      · rw [if_pos hsig] at h; cases h; exact ⟨rfl, rfl⟩
      · rw [if_neg hsig] at h
        cases hst : s.state.status with
        | running process _ | frozen process _ | stopping process _ _ =>
            rw [hst] at h
            obtain ⟨_, -, h⟩ := bind_eq_ok.mp h
            exact nomatch h
        | stopped | exited _ | error _ | dummy => rw [hst] at h; exact nomatch h

/-! ## Starts that fail -/

/-- `start_service` for a user's request, on the entry `s`, failed to spawn. -/
def StartFailed (name : String) (s : Service) (e : ServiceError) (m m' : Machine) : Prop :=
  ∃ s' out, Start name .user s s.state.livenessProbe out s' ∧ StartResult s s' (.error e)
    ∧ m' = m.put name s' out

/-- A service at rest is terminated by the arm for services at rest. -/
theorem terminateServiceInner_dead {s : Service} {requested : AfterStop}
    (hget : m.get? name = some s) (hdead : isDead s.state.status = true) :
    terminateServiceInner os m credentials name requested
      = terminateDead os m credentials name requested s.state.status (s.replaceStatus .dummy) := by
  unfold terminateServiceInner
  rw [hget]
  cases hst : s.state.status with
  | stopped | exited _ | error _ => dsimp only; rw [hst]
  | running _ _ | frozen _ _ | stopping _ _ _ | dummy => rw [hst] at hdead; exact nomatch hdead

/-- `terminate_service_inner` fails only where it starts a dead service again. -/
theorem terminateServiceInner_fails {s : Service} {requested : AfterStop}
    (h : terminateServiceInner os m credentials name requested = .ok (.error e, m'))
    (hget : m.get? name = some s) (hrequest : ∀ reason, requested = .restart reason → reason = .user)
    (hstart : requested.isRestart = true →
      m.mgr.shutdown = false ∧ s.checkCredentials credentials = .ok ()) :
    isDead s.state.status = true ∧ StartFailed name s e m m' := by
  have hdead : isDead s.state.status = true := by
    by_contra hlive
    exact nomatch (terminateServiceInner_ok h hget hstart).2 (Bool.eq_false_iff.mpr hlive)
  rw [terminateServiceInner_dead hget hdead] at h
  refine ⟨hdead, ?_⟩
  cases requested with
  | stop =>
      obtain ⟨_, -, h⟩ := bind_eq_ok.mp h
      exact nomatch h
  | prune => exact nomatch h
  | restart reason =>
      obtain rfl := hrequest reason rfl
      obtain ⟨hshut, hcred⟩ := hstart rfl
      obtain ⟨s', out, hentry, rfl⟩ := startService_ok h hshut get?_put_self hcred
      obtain ⟨hs', hresult⟩ := startEntry_ok hentry (.replaceStatus s .dummy)
      exact ⟨s', out, hs', hresult, put_put⟩

/-- A stop, prune or restart fails by a refusal or by the start of a service at rest. -/
theorem stopServiceCmd_fails {requested : AfterStop}
    (h : stopServiceCmd os m credentials name requested = .ok (.error e, m'))
    (hrequest : ∀ reason, requested = .restart reason → reason = .user) :
    Refused e m m' ∨ ∃ s, m.get? name = some s ∧ isDead s.state.status = true
      ∧ StartFailed name s e m m' := by
  rw [stopServiceCmd_eq] at h
  cases hget : getService m credentials name with
  | error e' => rw [hget] at h; cases h; exact Or.inl ⟨rfl, getService_refuses hget⟩
  | ok s =>
      rw [hget] at h
      dsimp only at h
      obtain ⟨hs, -⟩ := getService_iff.mp hget
      by_cases hboot : name = bootstrapName
      · rw [if_pos hboot] at h; cases h; exact Or.inl ⟨rfl, rfl⟩
      rw [if_neg hboot] at h
      by_cases hshut : m.mgr.shutdown ∧ requested.isRestart
      · rw [if_pos hshut] at h; cases h; exact Or.inl ⟨rfl, rfl⟩
      rw [if_neg hshut] at h
      exact Or.inr ⟨s, hs, terminateServiceInner_fails h hs hrequest (permitted_owner hshut)⟩

/-- **A command that fails** was refused, or failed to start the service it names:
    a dead one, or one it had just created. -/
theorem handleApiCommand_fails {cmd : Command}
    (h : handleApiCommand os m cmd credentials = .ok (.error e, m')) :
    Refused e m m' ∨ ∃ name s, target cmd = some name
      ∧ (m.get? name = some s ∧ isDead s.state.status = true ∨ m.get? name = none ∧ Created s)
      ∧ StartFailed name s e m m' := by
  have hdone : ∀ {x : Except Panic (Outcome (Except ServiceError Unit))},
      (do return answerDone (← x) : Except Panic (Outcome (Except ServiceError Response)))
        = .ok (.error e, m') → x = .ok (.error e, m') := by
    intro x hx
    obtain ⟨result, hx, hreply⟩ := answerDone_ok hx
    cases result with
    | ok u => exact nomatch hreply
    | error e' => cases hreply; exact hx
  have hstop : ∀ {name requested}, target cmd = some name →
      (∀ reason, requested = .restart reason → reason = .user) →
      stopServiceCmd os m credentials name requested = .ok (.error e, m') →
      Refused e m m' ∨ ∃ name s, target cmd = some name
        ∧ (m.get? name = some s ∧ isDead s.state.status = true ∨ m.get? name = none ∧ Created s)
        ∧ StartFailed name s e m m' := by
    intro name requested htarget hrequest hcmd
    refine (stopServiceCmd_fails hcmd hrequest).imp_right ?_
    rintro ⟨s, hget, hdead, hfailed⟩
    exact ⟨name, s, htarget, Or.inl ⟨hget, hdead⟩, hfailed⟩
  cases cmd with
  | createService name service =>
      rw [handleApiCommand] at h
      dsimp only at h
      cases henv : serviceEnvironment os m credentials name service.env with
      | error e' => rw [henv] at h; cases h; exact Or.inl ⟨rfl, serviceEnvironment_refuses henv⟩
      | ok env =>
          rw [henv] at h
          dsimp only at h
          cases hcreate : createService m name (requestedConfig service env credentials) with
          | mk result m₁ =>
              rw [hcreate] at h
              cases result with
              | error e' => cases h; exact Or.inl (createService_refuses hcreate)
              | ok u =>
                  rcases createService_ok hcreate with ⟨-, e', he⟩ | ⟨-, hshut, hget, s, hs, hconfig, rfl⟩
                  · exact nomatch he
                  · obtain ⟨⟨result, m₂⟩, hstart, h⟩ := bind_eq_ok.mp h
                    cases result with
                    | ok u => exact nomatch h
                    | error e' =>
                        cases h
                        have hcred : s.checkCredentials credentials = .ok () :=
                          Service.checkCredentials_iff.mpr (Or.inr (by rw [hconfig]; rfl))
                        obtain ⟨s', out, hentry, rfl⟩ := startService_ok hstart hshut get?_put_self hcred
                        obtain ⟨hs', hresult⟩ := startEntry_ok hentry (Copy.refl s)
                        exact Or.inr ⟨name, s, rfl, Or.inr ⟨hget, hs⟩, s', out, hs', hresult, put_put⟩
  | restartService name =>
      exact hstop rfl (fun reason hr => (AfterStop.restart.inj hr).symm) (hdone h)
  | stopService name prune =>
      refine hstop rfl (fun reason hr => ?_) (hdone h)
      cases prune <;> exact nomatch hr
  | freezeService name => exact Or.inl (freezeService_refuses (hdone h))
  | thawService name => exact Or.inl (thawService_refuses (hdone h))
  | notifyPtyAttached name | notifyPtyDetached name => exact Or.inl (notifyPty_refuses (hdone h))
  | sendSignal name sig => exact Or.inl (sendSignal_refuses (hdone h))
  | showService name =>
      unfold handleApiCommand at h
      dsimp only at h
      cases hget : getService m credentials name with
      | error e' => rw [hget] at h; cases h; exact Or.inl ⟨rfl, getService_refuses hget⟩
      | ok s =>
          rw [hget] at h
          obtain ⟨_, -, h⟩ := bind_eq_ok.mp h
          exact nomatch h
  | listServices =>
      obtain ⟨_, -, h⟩ := bind_eq_ok.mp h
      exact nomatch h
  | serviceLogs name follow =>
      unfold handleApiCommand logReader copyLogs at h
      dsimp only at h
      cases hget : getService m credentials name with
      | error e' =>
          rw [hget] at h
          cases follow <;> · cases h; exact Or.inl ⟨rfl, getService_refuses hget⟩
      | ok s => rw [hget] at h; cases follow <;> exact nomatch h
  | forceKillService name token =>
      obtain ⟨_, -, h⟩ := bind_eq_ok.mp h
      exact nomatch h

end Operations

/-! ## What a failed command leaves behind -/

/-- A start that ends in Error spawned no process and no probe. -/
theorem start_failed {name : String} {reason : StartReason} {s s' : Service} {err : IoError}
    {probe : Option AbortHandle} {out : List Effect} (h : Start name reason s probe out s')
    (hst : s'.state.status = .error err) :
    Update s s' (.error err) probe (restartAttempts reason s.state.automaticRestartAttempts)
      ∧ Lacks touchesChildren out ∧ Lacks (issues issuedProbe) out := by
  cases h with
  | running hu _ _ _ => exact nomatch hu.status_eq.symm.trans hst
  | failed hu hs =>
      cases hu.status_eq.symm.trans hst
      exact ⟨hu, (Lacks.cons rfl (quiet_sink hs)).append (.cons rfl .nil),
        (Lacks.cons rfl (sink_issues_nothing (fun _ => sink_probes) hs)).append (.cons rfl .nil)⟩
  | noPty hu =>
      cases hu.status_eq.symm.trans hst
      exact ⟨hu, .cons rfl .nil, .cons rfl .nil⟩

/-- The restart counter of a service, 0 for one that does not exist yet. -/
def attemptsBefore (m : Machine) (name : String) : Nat :=
  ((m.get? name).map (·.state.automaticRestartAttempts)).getD 0

/-- A failed spawn, seen from outside: only `name` differs, and it is in Error. -/
structure SpawnFailure (sys : System) (name : String) (e : ServiceError) (m' : Machine)
    (s : Service) (err : IoError) : Prop where
  others : ∀ other, other ≠ name → m'.get? other = sys.machine.get? other
  entry : m'.get? name = some s
  status_eq : s.state.status = .error err
  error_eq : e = .spawnFailed s.config.cmd err.text
  published : s.state.serviceStatusPublisher.latest = .error err.text
  attempts : s.state.automaticRestartAttempts
    = restartAttempts .user (attemptsBefore sys.machine name)
  /-- No process was spawned, and the service had none. -/
  processes : unreaped m'.trace = unreaped sys.machine.trace ∧ holder sys.machine name = none
  /-- No probe task is left to the service. -/
  probes : s.state.livenessProbe = none
    ∧ ∀ probe ∈ (sys.tasks.after (newEffects sys.machine m')).probes, probe.name ≠ name

/-- A start that fails from rest is a spawn failure: the entry is there, and in Error. -/
theorem spawnFailure_of_startFailed {sys : System} {name : String} {s : Service} {e : ServiceError}
    {m' : Machine} (h : SysReachable sys)
    (hbefore : sys.machine.get? name = some s ∧ isDead s.state.status = true
      ∨ sys.machine.get? name = none ∧ Created s)
    (hfailed : StartFailed name s e sys.machine m') : ∃ s' err, SpawnFailure sys name e m' s' err := by
  obtain ⟨s', out, hstart, hresult, rfl⟩ := hfailed
  rcases hresult with ⟨hok, -⟩ | ⟨err, he, hst⟩
  · exact nomatch hok
  have hf := sysReachable_fenced h
  have hnone : s.state.livenessProbe = none := by
    rcases hbefore with ⟨hget, hdead⟩ | ⟨-, hs⟩
    · exact probe_none_of_isDead (hf.tended name s hget) hdead
    · exact hs.probe
  have hheld : holder sys.machine name = none := by
    rw [holder]
    rcases hbefore with ⟨hget, hdead⟩ | ⟨hget, -⟩
    · rw [hget]
      exact process?_of_isDead hdead
    · rw [hget]
      rfl
  have hattempts : s.state.automaticRestartAttempts = attemptsBefore sys.machine name := by
    rw [attemptsBefore]
    rcases hbefore with ⟨hget, -⟩ | ⟨hget, hs⟩
    · rw [hget]; rfl
    · rw [hget]; exact hs.attempts
  rw [hnone] at hstart
  obtain ⟨hu, hquiet, hprobes⟩ := start_failed hstart hst
  refine ⟨s', err, ?_⟩
  constructor
  · exact fun other hne => get?_put_ne (Ne.symm hne)
  · exact get?_put_self
  · exact hst
  · have hconfig : s'.config = s.config := hu.config_eq
    rw [hconfig]
    exact Except.error.inj he
  · obtain ⟨api, hapi, hpub⟩ := hu.published
    cases hapi
    rw [hpub, ServiceStatusPublisher.publish_latest]
  · rw [hu.attempts_eq, hattempts]
  · refine ⟨?_, hheld⟩
    show unreaped (sys.machine.trace ++ out) = _
    rw [unreaped_append, foldl_quiet hquiet]
  · refine ⟨hu.probe_eq, fun probe hmem hname => ?_⟩
    rw [newEffects_of_append (show (sys.machine.put name s' out).trace = _ from rfl)] at hmem
    rcases mem_probes_after hmem with ⟨hold, -⟩ | hissued
    · -- a probe that runs belongs to a running service
      obtain ⟨t, process, pty, hget, hrunning, -⟩ := (sysReachable_oneProbeEach h).current probe hold
      have hshow : holder sys.machine name = some process := by
        rw [holder]
        rw [← hname, hget, heldBy_some, hrunning]
        rfl
      exact nomatch hheld.symm.trans hshow
    · rw [issued_of_lacks hprobes] at hissued
      exact nomatch hissued

/-- **HEADLINE.** A command that returns an error other than SpawnFailed has left
    every service, task and trace as it was; one that returns SpawnFailed has left
    the service it names in Error, without a process or a probe, and the others as
    they were. -/
theorem failed_commands {sys : System} {os : Os} {cmd : Command} {credentials : Credentials}
    {e : ServiceError} {m' : Machine} (h : SysReachable sys)
    (hcmd : handleApiCommand os sys.machine cmd credentials = .ok (.error e, m')) :
    ((∀ exe text, e ≠ .spawnFailed exe text) → m' = sys.machine)
      ∧ ((∃ exe text, e = .spawnFailed exe text) →
        ∃ name s err, target cmd = some name ∧ SpawnFailure sys name e m' s err) := by
  rcases handleApiCommand_fails hcmd with ⟨hsame, hkind⟩ | ⟨name, s, htarget, hbefore, hfailed⟩
  · refine ⟨fun _ => hsame, ?_⟩
    rintro ⟨exe, text, rfl⟩
    exact nomatch hkind
  · obtain ⟨s', err, hfailure⟩ := spawnFailure_of_startFailed h hbefore hfailed
    exact ⟨fun hne => absurd hfailure.error_eq (hne _ _), fun _ => ⟨name, s', err, htarget, hfailure⟩⟩

/-- A system that has no such executable. -/
def noExecutable : Os :=
  { steadyOs 100 0 [] with start :=
    { (steadyOs 100 0 []).start with
      spawn := .error ⟨.other, some 2, "No such file or directory (os error 2)"⟩ } }

theorem ok_of_toOption {ε α : Type} {x : Except ε α} {a : α} (h : x.toOption = some a) : x = .ok a := by
  cases x with
  | error e => exact nomatch h
  | ok b => exact congrArg Except.ok (Option.some.inj h)

/-- Here the creation of `web`, whose executable does not exist. -/
theorem failed_commands_web :
    ∃ m' name s err, target (.createService "web" webService) = some name
      ∧ SpawnFailure (systemAfter [.receive (steadyOs 50 9 [])]) name
        (.spawnFailed "/bin/web" "No such file or directory (os error 2)") m' s err := by
  have hresult : ((handleApiCommand noExecutable (systemAfter [.receive (steadyOs 50 9 [])]).machine
      (.createService "web" webService) ⟨1000, 1000⟩).toOption.map Prod.fst)
      = some (.error (.spawnFailed "/bin/web" "No such file or directory (os error 2)")) := by
    decide +kernel
  obtain ⟨⟨reply, m'⟩, hok, rfl⟩ := Option.map_eq_some_iff.mp hresult
  obtain ⟨name, s, err, hfailure⟩ :=
    (failed_commands (systemAfter_reachable (by decide +kernel)) (ok_of_toOption hok)).2 ⟨_, _, rfl⟩
  exact ⟨m', name, s, err, hfailure⟩

end BeamRefusals
