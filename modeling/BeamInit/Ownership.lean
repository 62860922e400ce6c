import BeamInit.Routes
import BeamInit.Signals

/-! # Ownership — what a client request can touch

    Each command acts on the one service it names, and only if the caller may
    touch it; everything else in the table stays as it is.  Root may touch every
    service but an existing bootstrap service, another user only its own. -/

namespace BeamOwnership

open BeamApi BeamOs BeamLogs BeamPublisher BeamService BeamManager BeamCommands BeamMainLoop
open BeamLifecycle BeamOperations BeamRefinement BeamConsistency BeamSignals Runs
open BeamRoutes (ClientRequest FromClient)

/-! ## Frames -/

/-- The entry `name` is exactly as it was, and its process was not signalled. -/
structure Untouched (m m' : Machine) (name : String) : Prop where
  entry : m'.get? name = m.get? name
  signals : ∃ out, m'.trace = m.trace ++ out
    ∧ ∀ e ∈ out, ∀ process ∈ signalled e, holder m name ≠ some process

theorem Untouched.refl (m : Machine) (name : String) : Untouched m m name :=
  ⟨rfl, [], (List.append_nil _).symm, nofun⟩

theorem Untouched.trans {m m' m'' : Machine} {name : String} (h : Untouched m m' name)
    (h' : Untouched m' m'' name) : Untouched m m'' name := by
  obtain ⟨out, htrace, hout⟩ := h.signals
  obtain ⟨out', htrace', hout'⟩ := h'.signals
  refine ⟨h'.entry.trans h.entry, out ++ out', ?_, List.forall_mem_append.mpr ⟨hout, ?_⟩⟩
  · rw [htrace', htrace, List.append_assoc]
  · have hholder : holder m' name = holder m name := by unfold holder; rw [h.entry]
    exact hholder ▸ hout'

/-- An action on one service leaves the others untouched. -/
theorem untouched_act {m m' : Machine} {name other : String} {action : Action}
    (hm : Consistent m) (h : Lifecycle m (.act name action) m') (hne : name ≠ other) :
    Untouched m m' other := by
  obtain ⟨out, entry, ht, rfl⟩ := h.act_inv
  refine ⟨by rw [get?_write, if_neg hne], out, write_trace entry, fun e hmem process hp hheld => ?_⟩
  rcases transition_signals ht with hlacks | ⟨-, honly⟩
  · exact nomatch signals_of_lacks none hlacks e hmem process hp
  · -- the signalled process belongs to `name`, and no two services share one
    exact hne (hm.accounts.unique (honly e hmem process hp) hheld rfl)

theorem untouched_actions {m m' : Machine} {name other : String} {actions : List Action}
    (hm : Consistent m) (hfresh : SpawnsFresh m'.trace)
    (h : Run Lifecycle m (actions.map (Label.act name)) m') (hne : name ≠ other) :
    Untouched m m' other := by
  induction actions generalizing m with
  | nil => rw [h.eq_of_nil]; exact .refl _ _
  | cons action actions ih =>
      cases h with
      | cons hfirst hrest =>
          have hmid := consistent_step (spawnsFresh_before (run_trace hrest) hfresh) hm hfirst
          exact (untouched_act hm hfirst hne).trans (ih hmid hrest)

/-- **A request touches only a service it names and the caller may touch.** -/
theorem event_untouched {os : Os} {m m' : Machine} {event : Event} {reply : Reply}
    {credentials : Credentials} {other : String} {s : Service} (hm : Reachable m)
    (hclient : FromClient credentials event) (h : Step m (.handled os event reply) m')
    (hget : m.get? other = some s)
    (hprotected : other = bootstrapName ∨ s.checkCredentials credentials ≠ .ok ()) :
    Untouched m m' other := by
  cases h with
  | handled hevent hfresh =>
      cases hclient with
      | getPty =>
          obtain ⟨_, _, heq⟩ := bind_eq_ok.mp hevent
          cases heq
          exact .refl _ _
      | waitService => cases hevent; exact .refl _ _
      | @command cmd hnotForce =>
          obtain ⟨⟨answer, m₁⟩, hcmd, heq⟩ := bind_eq_ok.mp hevent
          cases heq
          rcases handleApiCommand_ok hcmd with rfl | ⟨name, actions, htarget, hpermit, hrun, -⟩
          · exact .refl _ _
          · refine untouched_actions (reachable_consistent hm) hfresh hrun ?_
            -- a target that the caller may touch is not the protected service
            have htouch : MayTouch m credentials name → name ≠ other := by
              rintro ⟨hboot, t, hget', hcred⟩ rfl
              rcases hprotected with rfl | hforeign
              · exact hboot rfl
              · rw [Option.some.inj (hget.symm.trans hget')] at hforeign
                exact hforeign hcred
            cases cmd with
            | createService name' service =>
                rintro rfl
                exact nomatch hget.symm.trans hpermit
            | forceKillService name' token => exact absurd rfl (hnotForce name' token)
            | _ => exact htouch hpermit

/-! ## Replies -/

/-- The reply hands out the status, the logs, the PTY or a subscription of `name`. -/
def HandsOut (name : String) : Event → Reply → Prop
  | .command (.showService other) _, .response (.ok _) => other = name
  | .command (.serviceLogs other _) _, .response (.ok _) => other = name
  | .command .listServices _, .response (.ok (.services services)) => name ∈ services
  | .getPty other _, .pty (.ok _) => other = name
  | .waitService other _, .subscription (.ok _) => other = name
  | _, _ => False

/-- Showing the statuses of a list keeps its names. -/
theorem shown_names {entries : List (String × ServiceStatus)}
    {services : List (String × ApiServiceStatus)}
    (h : entries.mapM (fun (name, status) => do
        return (name, ← status.toApi)) = (.ok services : Except Panic _)) :
    services.map Prod.fst = entries.map Prod.fst := by
  induction entries generalizing services with
  | nil => cases h; rfl
  | cons entry entries ih =>
      rw [List.mapM_cons] at h
      obtain ⟨first, hfirst, h⟩ := bind_eq_ok.mp h
      obtain ⟨rest, hrest, h⟩ := bind_eq_ok.mp h
      cases h
      obtain ⟨api, -, hfirst⟩ := bind_eq_ok.mp hfirst
      cases hfirst
      rw [List.map_cons, List.map_cons, ih hrest]

/-- The list holds the services whose owner check the caller passes. -/
theorem listServices_mem {m : Machine} {credentials : Credentials} {name : String}
    (h : name ∈ (listServices m credentials).map Prod.fst) :
    ∃ s, m.get? name = some s ∧ s.checkCredentials credentials = .ok () := by
  obtain ⟨⟨_, status⟩, hmem, rfl⟩ := List.mem_map.mp h
  obtain ⟨⟨name, s⟩, hentry, heq⟩ := List.mem_map.mp hmem
  cases heq
  obtain ⟨hlist, hcred⟩ := List.mem_filter.mp hentry
  refine ⟨s, Std.ExtTreeMap.mem_toList_iff_getElem?_eq_some.mp hlist, ?_⟩
  cases hcheck : s.checkCredentials credentials with
  | ok u => rfl
  | error e => rw [hcheck] at hcred; exact nomatch hcred

/-- **Nothing is handed out** about a service the caller does not pass the check of. -/
theorem handsOut_authorized {os : Os} {m m' : Machine} {event : Event} {reply : Reply}
    {credentials : Credentials} {name : String} (hclient : FromClient credentials event)
    (h : handleEvent os m event = .ok (reply, m')) (hout : HandsOut name event reply) :
    ∃ s, m.get? name = some s ∧ s.checkCredentials credentials = .ok () := by
  have hfound : ∀ {name : String}, (∃ s, getService m credentials name = .ok s) →
      ∃ s, m.get? name = some s ∧ s.checkCredentials credentials = .ok () :=
    fun ⟨s, hs⟩ => ⟨s, getService_iff.mp hs⟩
  cases hclient with
  | @getPty other =>
      obtain ⟨result, hpty, heq⟩ := bind_eq_ok.mp h
      cases heq
      rw [getPty] at hpty
      cases hget : getService m credentials other with
      | error e => rw [hget] at hpty; cases hpty; exact hout.elim
      | ok s =>
          have hname : other = name := by
            cases result with
            | error e => exact hout.elim
            | ok pty => exact hout
          exact hname ▸ hfound ⟨s, hget⟩
  | @waitService other =>
      cases h
      rw [subscribe] at hout
      cases hget : getService m credentials other with
      | error e => rw [hget] at hout; exact hout.elim
      | ok s =>
          rw [hget] at hout
          exact (show other = name from hout) ▸ hfound ⟨s, hget⟩
  | @command cmd hnotForce =>
      obtain ⟨⟨answer, m₁⟩, hcmd, heq⟩ := bind_eq_ok.mp h
      cases heq
      cases cmd with
      | showService other =>
          unfold handleApiCommand at hcmd
          dsimp only at hcmd
          cases hget : getService m credentials other with
          | error e => rw [hget] at hcmd; cases hcmd; exact hout.elim
          | ok s =>
              have hname : other = name := by
                cases answer with
                | error e => exact hout.elim
                | ok response => exact hout
              exact hname ▸ hfound ⟨s, hget⟩
      | listServices =>
          obtain ⟨services, hlist, heq⟩ := bind_eq_ok.mp hcmd
          cases heq
          have hmem : name ∈ Std.ExtTreeMap.ofList services compare := hout
          rw [Std.ExtTreeMap.mem_ofList, List.contains_iff_mem, shown_names hlist] at hmem
          exact listServices_mem hmem
      | serviceLogs other follow =>
          cases hget : getService m credentials other with
          | error e =>
              have hreader : logReader m credentials other = .error e := by
                unfold logReader; rw [hget]
              have hcopy : copyLogs m credentials other = .error e := by
                unfold copyLogs; rw [hget]
              unfold handleApiCommand at hcmd
              dsimp only at hcmd
              rw [hreader, hcopy] at hcmd
              cases follow <;> · cases hcmd; exact hout.elim
          | ok s =>
              have hname : other = name := by
                cases answer with
                | error e => exact hout.elim
                | ok response => exact hout
              exact hname ▸ hfound ⟨s, hget⟩
      | _ => cases answer <;> exact hout.elim

/-! ## Owners -/

theorem transition_config {shutdown : Bool} {name : String} {action : Action} {s s' : Service}
    {out : List Effect} (h : Transition shutdown name action (some s) out (some s')) :
    s'.config = s.config := by
  have hstart : ∀ {reason probe out}, Start name reason s probe out s' → s'.config = s.config := by
    intro reason probe out h
    cases h with
    | running hu _ _ _ => exact hu.config_eq
    | failed hu _ => exact hu.config_eq
    | noPty hu => exact hu.config_eq
  cases h with
  | start _ _ h | restartDead _ _ h | restarted _ _ h => exact hstart h
  | keep hu | stopDead _ hu | freeze _ hu | thaw _ hu | merge _ _ hu | terminateFrozen _ _ hu
  | terminateRunning _ _ _ hu | exited _ hu | stopped _ hu => exact hu.config_eq
  | signal _ _ => rfl
  | stranded _ _ _ hconfig => exact hconfig
  | log hs => rw [hs]; rfl

/-- Lifecycle steps keep the configuration of an entry, unless they create it. -/
theorem config_run {m m' : Machine} {labels : List Label} {name : String} {s s' : Service}
    (h : Run Lifecycle m labels m') (hcreate : .act name .create ∉ labels)
    (hget : m.get? name = some s) (hget' : m'.get? name = some s') : s'.config = s.config := by
  refine h.invariant_of (I := fun m => ∀ s', m.get? name = some s' → s'.config = s.config)
    (Q := fun label => label ≠ .act name .create) ?_ ?_ ?_ s' hget'
  · intro m label m' hlabel hm hstep t ht
    cases hstep with
    | foreign _ => exact hm t ht
    | shutdown _ _ => exact hm t ht
    | @act other action out entry htrans =>
        rw [get?_write] at ht
        by_cases hname : other = name
        · subst hname
          rw [if_pos rfl] at ht
          subst ht
          cases hold : m.get? other with
          | some s₀ => exact (transition_config (hold ▸ htrans)).trans (hm s₀ hold)
          | none =>
              rw [hold] at htrans
              cases htrans with
              | create _ _ => exact absurd rfl hlabel
        · rw [if_neg hname] at ht
          exact hm t ht
  · exact fun label hmem heq => hcreate (heq ▸ hmem)
  · intro t ht
    rw [Option.some.inj (ht.symm.trans hget)]

/-- No event creates a service that exists. -/
theorem step_config {m m' : Machine} {move : Move} {name : String} {s s' : Service}
    (h : Step m move m') (hget : m.get? name = some s) (hget' : m'.get? name = some s') :
    s'.config = s.config := by
  cases h with
  | @logged other line service hlog =>
      have hcreate : Label.act name .create ∉ [Label.act other .log] :=
        fun hmem => nomatch List.mem_singleton.mp hmem
      exact config_run (.single (act_log hlog)) hcreate hget hget'
  | @handled _ os event reply hevent _ =>
      cases event with
      | command cmd credentials =>
          obtain ⟨⟨answer, m₁⟩, hcmd, heq⟩ := bind_eq_ok.mp hevent
          cases heq
          rcases handleApiCommand_ok hcmd with rfl | ⟨target, actions, -, hpermit, hrun, hserves⟩
          · rw [Option.some.inj (hget.symm.trans hget')]
          · refine config_run hrun (fun hmem => ?_) hget hget'
            obtain ⟨action, haction, heq⟩ := List.mem_map.mp hmem
            cases heq
            have := hserves _ haction
            cases cmd with
            | createService _ _ => exact nomatch hget.symm.trans hpermit
            | _ => exact absurd this (by simp [serves])
      | _ =>
          obtain ⟨labels, hrun, hcaused⟩ := handleEvent_ok hevent
          refine config_run hrun (fun hmem => ?_) hget hget'
          cases hcaused _ hmem

/-- A step after which `name` is still in the map. -/
def StepKeeping (name : String) (m : Machine) (move : Move) (m' : Machine) : Prop :=
  Step m move m' ∧ (m'.get? name).isSome = true

/-- During its life in the map a service keeps its configuration. -/
theorem life_config {m m' : Machine} {moves : List Move} {name : String} {s s' : Service}
    (h : Run (StepKeeping name) m moves m') (hget : m.get? name = some s)
    (hget' : m'.get? name = some s') : s'.config = s.config := by
  induction h generalizing s with
  | nil m => rw [Option.some.inj (hget.symm.trans hget')]
  | cons hstep _ ih =>
      obtain ⟨t, ht⟩ := Option.isSome_iff_exists.mp hstep.2
      exact (ih ht hget').trans (step_config hstep.1 hget ht)

/-- **HEADLINE.** Whatever a client requests in a reachable state: a service of
    another user is left exactly as it was, its process gets no signal and
    nothing about it is handed out, unless the caller is root; an existing
    bootstrap service is left as it was for every caller; whatever events follow,
    a service keeps its owner as long as it is in the map; and no request is a
    force-kill. -/
theorem requests_respect_owners {os : Os} {m m' : Machine} {request : ClientRequest}
    {credentials : Credentials} {event : Event} {reply : Reply} (hm : Reachable m)
    (hevent : request.event credentials = some event) (h : Step m (.handled os event reply) m') :
    (credentials.uid ≠ 0 → ∀ name s, m.get? name = some s →
        s.config.credentials.uid ≠ credentials.uid →
        Untouched m m' name ∧ ¬ HandsOut name event reply)
      ∧ (∀ s, m.get? bootstrapName = some s → Untouched m m' bootstrapName)
      ∧ (∀ moves m₂ name s s', Run (StepKeeping name) m moves m₂ → m.get? name = some s →
        m₂.get? name = some s' → s'.config.credentials = s.config.credentials)
      ∧ ∀ name token credentials', event ≠ .command (.forceKillService name token) credentials' := by
  have hclient := ClientRequest.event_fromClient hevent
  have hforeign : credentials.uid ≠ 0 → ∀ s : Service,
      s.config.credentials.uid ≠ credentials.uid → s.checkCredentials credentials ≠ .ok () := by
    intro huid s howner hok
    rcases Service.checkCredentials_iff.mp hok with hroot | hsame
    · exact huid hroot
    · exact howner hsame.symm
  refine ⟨fun huid name s hget howner => ⟨?_, fun hout => ?_⟩, fun s hget => ?_,
    fun _ _ _ _ _ hrun hget hget' => congrArg (·.credentials) (life_config hrun hget hget'), ?_⟩
  · exact event_untouched hm hclient h hget (Or.inr (hforeign huid s howner))
  · cases h with
    | handled hhandle _ =>
        obtain ⟨t, hget', hcred⟩ := handsOut_authorized hclient hhandle hout
        rw [← Option.some.inj (hget.symm.trans hget')] at hcred
        exact hforeign huid s howner hcred
  · exact event_untouched hm hclient h hget (Or.inl rfl)
  · rintro name token credentials' rfl
    cases hclient with
    | command hnotForce => exact hnotForce name token rfl

/-- Here the user 2000, who tries to stop the `web` of the user 1000. -/
theorem requests_respect_owners_web :
    Untouched (machineAfter [createWeb]) (machineAfter [createWeb]) "web"
      ∧ ¬ HandsOut "web" (BeamRoutes.stopService ⟨2000, 2000⟩ "web")
        (.response (.error .invalidCredentials)) :=
  have hevent : (ClientRequest.stopService "web").event ⟨2000, 2000⟩
      = some (BeamRoutes.stopService ⟨2000, 2000⟩ "web") := rfl
  have hstep : Step (machineAfter [createWeb])
      (.handled (steadyOs 0 1 []) (BeamRoutes.stopService ⟨2000, 2000⟩ "web")
        (.response (.error .invalidCredentials))) (machineAfter [createWeb]) :=
    .handled (by decide +kernel) (by decide +kernel)
  (requests_respect_owners createWeb_reachable hevent hstep).1 (by decide) "web"
    (((machineAfter [createWeb]).get? "web").get (by decide +kernel)) (Option.some_get _).symm
    (by decide +kernel)

end BeamOwnership
