import BeamInit.Consistency
import BeamInit.Broadcast
import BeamInit.Routes

/-! # Subscriptions — what a client that waits for a status is told

    A subscription is the status at one point and a position in the values that
    the publisher of the service sends from there on.  Every status a service takes
    goes through the publisher, which sends changes only, and the publisher goes
    with the service.  So the subscriber gets the views of that very service, with
    equal neighbours collapsed, and then the end. -/

namespace BeamSubscriptions

open BeamApi BeamOs BeamLogs BeamPublisher BeamService BeamManager BeamMainLoop BeamLifecycle
open BeamOperations BeamRefinement BeamConsistency BeamRoutes Runs Broadcast

/-! ## The two ends of a subscription -/

/-- `broadcast::channel(32)`. -/
def channelSize : Nat := 32

/-- `ServiceStatusSubscription::recv`; `none` while there is nothing to return. -/
def recv (channel : Channel ApiServiceStatus) (self : ServiceStatusSubscription) :
    Option (Except RecvError ApiServiceStatus × ServiceStatusSubscription) :=
  match self.current with
  -- `self.current.take()`
  | some status => some (.ok status, { self with current := none })
  | none =>
      (channel.recv channelSize self.position).map
        (fun next => (next.1, { self with position := next.2 }))

/-- `ServiceStatus::kind`. -/
def kind : ApiServiceStatus → ServiceStatusKind
  | .stopped => .stopped
  | .running .. => .running
  | .frozen .. => .frozen
  | .stopping .. => .stopping
  | .exited _ => .exited
  | .error _ => .error

/-- The loop of `wait_service` over what `recv` has returned so far: its answer,
    or `none` if it is still waiting. -/
def waitLoop (statusKind : ServiceStatusKind) :
    List (Except RecvError ApiServiceStatus) → Option (Except ServiceError ApiServiceStatus)
  | [] => none
  | .ok s :: rest => if kind s = statusKind then some (.ok s) else waitLoop statusKind rest
  | .error .closed :: _ => some (.error .servicePrunedWhileWaiting)
  | .error (.lagged skipped) :: _ => some (.error (.observationLagged skipped))

/-! ## A subscriber beside the manager -/

/-- The status of a service as the API shows it. -/
def view (m : Machine) (name : String) : Option ApiServiceStatus :=
  (m.get? name).bind (fun service => service.state.status.toApi.toOption)

/-- The manager, the channel of one service and a subscriber.  `views` are the
    views that service has taken since the subscription, oldest first. -/
structure Watched where
  machine : Machine
  views : List ApiServiceStatus
  channel : Channel ApiServiceStatus
  subscription : ServiceStatusSubscription
  results : List (Except RecvError ApiServiceStatus)

/-- The channel of a service after a step that leaves `entry`: a publisher that is
    dropped closes it, and a service of the same name has another one. -/
def follow (channel : Channel ApiServiceStatus) (entry : Option Service) :
    Channel ApiServiceStatus :=
  if channel.closed then channel
  else
    match entry with
    | some service => ⟨service.state.serviceStatusPublisher.sent, false⟩
    | none => { channel with closed := true }

inductive WatchMove where
  | managed (label : Label)
  | received (result : Except RecvError ApiServiceStatus)

/-- A step in the life of some service, or a `recv` of the subscriber that returns. -/
inductive WatchStep (name : String) : Watched → WatchMove → Watched → Prop where
  | managed {w : Watched} {label : Label} {m' : Machine} :
      Lifecycle w.machine label m' → SpawnsFresh m'.trace →
      WatchStep name w (.managed label) { w with
        machine := m'
        views := if w.channel.closed then w.views else w.views ++ (view m' name).toList
        channel := follow w.channel (m'.get? name) }
  | received {w : Watched} {result : Except RecvError ApiServiceStatus}
      {subscription : ServiceStatusSubscription} :
      recv w.channel w.subscription = some (result, subscription) →
      WatchStep name w (.received result) { w with
        subscription := subscription
        results := w.results ++ [result] }

/-- The state in which a subscription to `name` has just been taken. -/
def Watched.subscribed (m : Machine) (name : String) (subscription : ServiceStatusSubscription) :
    Watched where
  machine := m
  views := (view m name).toList
  channel := ⟨((m.get? name).map (·.state.serviceStatusPublisher.sent)).getD [], false⟩
  subscription := subscription
  results := []

/-- The values on their way to the subscriber. -/
def Watched.pending (w : Watched) : List ApiServiceStatus :=
  w.subscription.current.toList ++ w.channel.unread w.subscription.position

/-- The subscriber keeps up: at most 32 published values are unread when it reads
    the channel. -/
def InTime (w : Watched) (move : WatchMove) (_ : Watched) : Prop :=
  ∀ result, move = .received result → w.subscription.current = none →
    (w.channel.unread w.subscription.position).length ≤ channelSize

/-- A run in which the subscriber keeps up. -/
abbrev TimelyRun (name : String) : Watched → List WatchMove → Watched → Prop :=
  Run (Where (WatchStep name) InTime)

/-! ## Every status is published -/

/-- A transition publishes the view it leaves, and nothing else. -/
theorem transition_publishes {shutdown : Bool} {name : String} {action : Action} {s s' : Service}
    {out : List Effect} (h : Transition shutdown name action (some s) out (some s'))
    (hsettled : shutdown = true → isSettled s.state.status = true) :
    s'.state.serviceStatusPublisher
      = s.state.serviceStatusPublisher.publish s'.state.serviceStatusPublisher.latest := by
  have hupdate : ∀ {status : ServiceStatus} {probe : Option AbortHandle} {attempts : Nat},
      Update s s' status probe attempts → s'.state.serviceStatusPublisher
        = s.state.serviceStatusPublisher.publish s'.state.serviceStatusPublisher.latest := by
    intro status probe attempts hu
    obtain ⟨api, -, hpub⟩ := hu.published
    rw [hpub, ServiceStatusPublisher.publish_latest]
  have hsame : s'.state.serviceStatusPublisher = s.state.serviceStatusPublisher →
      s'.state.serviceStatusPublisher
        = s.state.serviceStatusPublisher.publish s'.state.serviceStatusPublisher.latest := by
    intro heq
    rw [heq]
    exact (ServiceStatusPublisher.publish_same _ rfl).symm
  have hstart : ∀ {reason : StartReason} {probe : Option AbortHandle} {out : List Effect},
      Start name reason s probe out s' → s'.state.serviceStatusPublisher
        = s.state.serviceStatusPublisher.publish s'.state.serviceStatusPublisher.latest := by
    intro reason probe out hstart
    cases hstart with
    | running hu _ _ _ => exact hupdate hu
    | failed hu _ => exact hupdate hu
    | noPty hu => exact hupdate hu
  cases h with
  | start _ _ hs | restartDead _ _ hs | restarted _ _ hs => exact hstart hs
  | keep hu | stopDead _ hu | freeze _ hu | thaw _ hu | merge _ _ hu | terminateFrozen _ _ hu
  | terminateRunning _ _ _ hu | exited _ hu | stopped _ hu => exact hupdate hu
  | signal _ _ => exact hsame rfl
  | log hs => exact hsame (hs ▸ rfl)
  | stranded hshut hst _ _ =>
      -- a settled service has no restart pending
      have := hsettled hshut
      rw [hst] at this
      exact nomatch this

theorem lifecycle_publishes {m m' : Machine} {label : Label} {name : String} {s s' : Service}
    (hm : Consistent m) (h : Lifecycle m label m') (hget : m.get? name = some s)
    (hget' : m'.get? name = some s') :
    s'.state.serviceStatusPublisher
      = s.state.serviceStatusPublisher.publish s'.state.serviceStatusPublisher.latest := by
  have hsame : s' = s → s'.state.serviceStatusPublisher
      = s.state.serviceStatusPublisher.publish s'.state.serviceStatusPublisher.latest :=
    fun heq => heq ▸ (ServiceStatusPublisher.publish_same _ rfl).symm
  cases h with
  | @act acted action out entry ht =>
      rw [get?_write] at hget'
      by_cases hname : acted = name
      · subst hname
        rw [if_pos rfl] at hget'
        rw [hget, hget'] at ht
        exact transition_publishes ht fun hshut => hm.settled hshut acted s hget
      · rw [if_neg hname, hget] at hget'
        exact hsame (Option.some.inj hget').symm
  | foreign _ | shutdown _ _ =>
      exact hsame (Option.some.inj (hget'.symm.trans hget))

/-- A service shows its subscribers the view it has. -/
theorem view_eq {m : Machine} {name : String} {s : Service} (hm : Consistent m)
    (hget : m.get? name = some s) : view m name = some s.state.serviceStatusPublisher.latest := by
  show (m.get? name).bind _ = _
  rw [hget, Option.bind_some, hm.shown name s hget]
  rfl

theorem view_none {m : Machine} {name : String} (hget : m.get? name = none) : view m name = none := by
  show (m.get? name).bind _ = _
  rw [hget]
  rfl

/-! ## What the subscriber has got -/

/-- **The invariant**: what the subscriber has got and what is on its way to it are
    the views of the service, with equal neighbours collapsed; it is told of the
    end once it has got them all. -/
structure Delivering (name : String) (w : Watched) : Prop where
  fresh : SpawnsFresh w.machine.trace
  consistent : Consistent w.machine
  alive : w.channel.closed = false → ∃ s, w.machine.get? name = some s
    ∧ s.state.serviceStatusPublisher.sent = w.channel.sent
    ∧ w.views.getLast? = some s.state.serviceStatusPublisher.latest
  behind : w.subscription.position ≤ w.channel.sent.length
  delivered : ∃ values n, w.results = values.map .ok ++ List.replicate n (.error .closed)
    ∧ values ++ w.pending = w.views.destutter (· ≠ ·)
    ∧ (0 < n → w.channel.closed = true ∧ w.pending = [])

theorem delivering_subscribed {m : Machine} {credentials : Credentials} {name : String}
    {subscription : ServiceStatusSubscription} (hm : Reachable m)
    (hsub : subscribe m credentials name = .ok subscription) :
    Delivering name (.subscribed m name subscription) := by
  rw [subscribe] at hsub
  cases hget : getService m credentials name with
  | error e => rw [hget] at hsub; exact nomatch hsub
  | ok s =>
      rw [hget] at hsub
      cases hsub
      obtain ⟨hs, -⟩ := getService_iff.mp hget
      have hviews := congrArg Option.toList (view_eq (reachable_consistent hm) hs)
      have hsent : ((m.get? name).map (·.state.serviceStatusPublisher.sent)).getD []
          = s.state.serviceStatusPublisher.sent := by rw [hs]; rfl
      refine ⟨reachable_fresh hm, reachable_consistent hm, fun _ => ⟨s, hs, hsent.symm, ?_⟩, ?_,
        [], 0, rfl, ?_, nofun⟩
      · show (view m name).toList.getLast? = _
        rw [hviews]
        rfl
      · show _ ≤ (((m.get? name).map (·.state.serviceStatusPublisher.sent)).getD []).length
        rw [hsent]
        exact Nat.le_refl _
      · show _ :: (((m.get? name).map (·.state.serviceStatusPublisher.sent)).getD []).drop
          s.state.serviceStatusPublisher.sent.length = (view m name).toList.destutter (· ≠ ·)
        rw [hviews, hsent, List.drop_length]
        rfl

/-- A new value joins those on their way, if it is a change. -/
theorem delivering_managed {name : String} {w : Watched} {label : Label} {m' : Machine}
    (h : Delivering name w) (hstep : Lifecycle w.machine label m') (hfresh : SpawnsFresh m'.trace) :
    Delivering name { w with
      machine := m'
      views := if w.channel.closed then w.views else w.views ++ (view m' name).toList
      channel := follow w.channel (m'.get? name) } := by
  have hm' := consistent_step hfresh h.consistent hstep
  cases hclosed : w.channel.closed with
  | true =>
      have hfollow : follow w.channel (m'.get? name) = w.channel := if_pos hclosed
      rw [hfollow, if_pos rfl]
      exact ⟨hfresh, hm', fun hopen => (nomatch hclosed.symm.trans hopen), h.behind, h.delivered⟩
  | false =>
      obtain ⟨s, hget, hsent, hlast⟩ := h.alive hclosed
      obtain ⟨values, n, hresults, hvalues, hend⟩ := h.delivered
      obtain rfl : n = 0 := by
        by_contra hne
        exact nomatch hclosed.symm.trans (hend (Nat.pos_of_ne_zero hne)).1
      have hfollow : follow w.channel (m'.get? name) = match m'.get? name with
          | some service => ⟨service.state.serviceStatusPublisher.sent, false⟩
          | none => { w.channel with closed := true } :=
        if_neg (Bool.eq_false_iff.mp hclosed)
      rw [hfollow, if_neg Bool.false_ne_true]
      cases hget' : m'.get? name with
      | none =>
          rw [view_none hget', Option.toList_none, List.append_nil]
          exact ⟨hfresh, hm', nofun, h.behind, values, 0, hresults, hvalues, nofun⟩
      | some s' =>
          rw [view_eq hm' hget', Option.toList_some]
          have hpub := lifecycle_publishes h.consistent hstep hget hget'
          have hconcat := destutter_concat hlast s'.state.serviceStatusPublisher.latest
          by_cases hsame : s.state.serviceStatusPublisher.latest
              = s'.state.serviceStatusPublisher.latest
          · -- the same value again: nothing is sent
            rw [ServiceStatusPublisher.publish_same _ hsame] at hpub
            rw [if_pos hsame] at hconcat
            refine ⟨hfresh, hm', fun _ => ⟨s', hget', rfl, List.getLast?_concat⟩, ?_,
              values, 0, hresults, ?_, nofun⟩
            · show w.subscription.position ≤ s'.state.serviceStatusPublisher.sent.length
              rw [hpub, hsent]
              exact h.behind
            · show values ++ (w.subscription.current.toList
                ++ s'.state.serviceStatusPublisher.sent.drop w.subscription.position) = _
              rw [hconcat, ← hvalues, hpub, hsent]
              rfl
          · have hmore : s'.state.serviceStatusPublisher.sent
                = w.channel.sent ++ [s'.state.serviceStatusPublisher.latest] := by
              rw [← hsent]
              conv_lhs => rw [hpub]
              rw [ServiceStatusPublisher.publish]
              rw [if_neg hsame]
            rw [if_neg hsame] at hconcat
            refine ⟨hfresh, hm', fun _ => ⟨s', hget', rfl, List.getLast?_concat⟩, ?_,
              values, 0, hresults, ?_, nofun⟩
            · show w.subscription.position ≤ s'.state.serviceStatusPublisher.sent.length
              rw [hmore, List.length_append]
              exact Nat.le_add_right_of_le h.behind
            · show values ++ (w.subscription.current.toList
                ++ s'.state.serviceStatusPublisher.sent.drop w.subscription.position) = _
              rw [hconcat, ← hvalues, hmore, List.drop_append_of_le_length h.behind]
              simp only [Watched.pending, Channel.unread, List.append_assoc]

/-- `recv` takes the next value on its way, or says that there will be no more. -/
theorem recv_next {name : String} {w : Watched} {result : Except RecvError ApiServiceStatus}
    {subscription : ServiceStatusSubscription} (h : Delivering name w)
    (hrecv : recv w.channel w.subscription = some (result, subscription))
    (hroom : w.subscription.current = none →
      (w.channel.unread w.subscription.position).length ≤ channelSize) :
    subscription.position ≤ w.channel.sent.length
      ∧ ((∃ value, result = .ok value
          ∧ w.pending = value :: (subscription.current.toList ++ w.channel.unread subscription.position))
        ∨ result = .error .closed ∧ w.channel.closed = true ∧ w.pending = []
          ∧ subscription = w.subscription) := by
  rw [recv] at hrecv
  rw [Watched.pending]
  cases hcurrent : w.subscription.current with
  | some status =>
      rw [hcurrent] at hrecv
      cases hrecv
      exact ⟨h.behind, Or.inl ⟨status, rfl, rfl⟩⟩
  | none =>
      rw [hcurrent] at hrecv
      cases hunread : w.channel.unread w.subscription.position with
      | cons value rest =>
          obtain ⟨hvalue, hrest⟩ := Channel.recv_value hunread (hroom hcurrent)
          rw [hvalue] at hrecv
          cases hrecv
          refine ⟨?_, Or.inl ⟨value, rfl, ?_⟩⟩
          · have hlen := congrArg List.length hunread
            rw [Channel.unread, List.length_drop, List.length_cons] at hlen
            show w.subscription.position + 1 ≤ _
            omega
          · show value :: rest = value :: w.channel.unread (w.subscription.position + 1)
            rw [hrest]
      | nil =>
          dsimp only at hrecv
          rw [Channel.recv_nothing hunread] at hrecv
          cases hclosed : w.channel.closed with
          | false => rw [hclosed] at hrecv; exact nomatch hrecv
          | true =>
              rw [hclosed] at hrecv
              cases hrecv
              exact ⟨h.behind, Or.inr ⟨rfl, rfl, rfl, by rw [← hcurrent]⟩⟩

theorem delivering_received {name : String} {w : Watched}
    {result : Except RecvError ApiServiceStatus} {subscription : ServiceStatusSubscription}
    (h : Delivering name w) (hrecv : recv w.channel w.subscription = some (result, subscription))
    (hroom : w.subscription.current = none →
      (w.channel.unread w.subscription.position).length ≤ channelSize) :
    Delivering name { w with subscription := subscription, results := w.results ++ [result] } := by
  obtain ⟨hbehind, hnext⟩ := recv_next h hrecv hroom
  obtain ⟨values, n, hresults, hvalues, hend⟩ := h.delivered
  refine ⟨h.fresh, h.consistent, h.alive, hbehind, ?_⟩
  rcases hnext with ⟨value, rfl, hpending⟩ | ⟨rfl, hclosed, hpending, rfl⟩
  · -- a value: nothing has been said of the end yet
    obtain rfl : n = 0 := by
      by_contra hne
      rw [(hend (Nat.pos_of_ne_zero hne)).2] at hpending
      exact nomatch hpending
    refine ⟨values ++ [value], 0, ?_, ?_, nofun⟩
    · rw [hresults]
      simp
    · rw [← hvalues, hpending]
      show values ++ [value] ++ (subscription.current.toList
        ++ w.channel.unread subscription.position) = _
      rw [List.append_assoc]
      rfl
  · refine ⟨values, n + 1, ?_, hvalues, fun _ => ⟨hclosed, hpending⟩⟩
    rw [hresults, List.append_assoc, List.replicate_succ']

/-- The step lemma. -/
theorem delivering_step {name : String} {w w' : Watched} {move : WatchMove}
    (h : Delivering name w) (hstep : Where (WatchStep name) InTime w move w') :
    Delivering name w' := by
  obtain ⟨hstep, htime⟩ := hstep
  cases hstep with
  | managed hlife hfresh => exact delivering_managed h hlife hfresh
  | received hrecv => exact delivering_received h hrecv (htime _ rfl)

theorem delivering_run {name : String} {w w' : Watched} {moves : List WatchMove}
    (h : Delivering name w) (hrun : TimelyRun name w moves w') : Delivering name w' :=
  hrun.invariant delivering_step h

/-! ## The end of the service -/

/-- Once the service is gone, its channel and its views stay as they are. -/
theorem closed_step {name : String} {w w' : Watched} {move : WatchMove}
    (h : WatchStep name w move w') (hclosed : w.channel.closed = true) :
    w'.channel = w.channel ∧ w'.views = w.views := by
  cases h with
  | managed _ _ => exact ⟨if_pos hclosed, if_pos hclosed⟩
  | received _ => exact ⟨rfl, rfl⟩

theorem closed_run {name : String} {w w' : Watched} {moves : List WatchMove}
    (h : Run (WatchStep name) w moves w') (hclosed : w.channel.closed = true) :
    w'.channel = w.channel ∧ w'.views = w.views := by
  induction h with
  | nil _ => exact ⟨rfl, rfl⟩
  | cons hstep _ ih =>
      obtain ⟨hchannel, hviews⟩ := closed_step hstep hclosed
      obtain ⟨hchannel', hviews'⟩ := ih (hchannel ▸ hclosed)
      exact ⟨hchannel'.trans hchannel, hviews'.trans hviews⟩

/-- In some state of the run the service was not in the map. -/
def RemovedDuring (name : String) (w : Watched) (moves : List WatchMove) (w' : Watched) : Prop :=
  ∃ before after w₁, moves = before ++ after ∧ TimelyRun name w before w₁
    ∧ TimelyRun name w₁ after w' ∧ w₁.machine.get? name = none

theorem closed_iff_removed {name : String} {w w' : Watched} {moves : List WatchMove}
    (h : Delivering name w) (hopen : w.channel.closed = false) (hrun : TimelyRun name w moves w') :
    w'.channel.closed = true ↔ RemovedDuring name w moves w' := by
  constructor
  · intro hclosed
    induction hrun with
    | nil w => exact nomatch hopen.symm.trans hclosed
    | @cons w w₁ w' move moves hstep hrest ih =>
        cases hmid : w₁.channel.closed with
        | false =>
            obtain ⟨before, after, w₂, rfl, hbefore, hafter, hgone⟩ :=
              ih (delivering_step h hstep) hmid hclosed
            exact ⟨move :: before, after, w₂, rfl, .cons hstep hbefore, hafter, hgone⟩
        | true =>
            -- the step that closed the channel found no service
            refine ⟨[move], moves, w₁, rfl, .single hstep, hrest, ?_⟩
            obtain ⟨hstep, -⟩ := hstep
            cases hstep with
            | received _ => exact nomatch hopen.symm.trans hmid
            | @managed _ m' _ _ =>
                show m'.get? name = none
                cases hget : m'.get? name with
                | none => rfl
                | some s =>
                    dsimp only at hmid
                    unfold follow at hmid
                    rw [if_neg (Bool.eq_false_iff.mp hopen), hget] at hmid
                    exact nomatch hmid
  · rintro ⟨before, after, w₁, rfl, hbefore, hafter, hgone⟩
    have hclosed : w₁.channel.closed = true := by
      by_contra hne
      obtain ⟨s, hget, -⟩ := (delivering_run h hbefore).alive (Bool.eq_false_iff.mpr hne)
      exact nomatch hgone.symm.trans hget
    rw [(closed_run hafter.of_where hclosed).1]
    exact hclosed

/-! ## The answer of `wait_service` -/

theorem waitLoop_append (statusKind : ServiceStatusKind)
    (results rest : List (Except RecvError ApiServiceStatus)) :
    waitLoop statusKind (results ++ rest)
      = (waitLoop statusKind results).or (waitLoop statusKind rest) := by
  induction results with
  | nil => rfl
  | cons result results ih =>
      cases result with
      | ok s =>
          by_cases hkind : kind s = statusKind
          · show (if kind s = statusKind then _ else _)
              = (if kind s = statusKind then _ else _ : Option _).or _
            rw [if_pos hkind, if_pos hkind]
            rfl
          · show (if kind s = statusKind then _ else _)
              = (if kind s = statusKind then _ else _ : Option _).or _
            rw [if_neg hkind, if_neg hkind]
            exact ih
      | error e => cases e <;> rfl

/-- Over values only, the loop answers with the first one of its kind. -/
theorem waitLoop_values (statusKind : ServiceStatusKind) (values : List ApiServiceStatus) :
    waitLoop statusKind (values.map .ok) = (values.find? (kind · = statusKind)).map .ok := by
  induction values with
  | nil => rfl
  | cons value values ih =>
      show (if kind value = statusKind then _ else _) = _
      by_cases hkind : kind value = statusKind
      · rw [if_pos hkind, List.find?_cons_of_pos (p := fun s => kind s = statusKind)
          (decide_eq_true hkind)]
        rfl
      · rw [if_neg hkind, List.find?_cons_of_neg (p := fun s => kind s = statusKind)
          (fun heq => hkind (of_decide_eq_true heq))]
        exact ih

/-- What `wait_service` has answered, and what is true of the service. -/
structure Answers (name : String) (statusKind : ServiceStatusKind) (w₀ : Watched)
    (moves : List WatchMove) (w : Watched) : Prop where
  /-- An answer with a status has the kind asked for and is a view of the service. -/
  status : ∀ s, waitLoop statusKind w.results = some (.ok s) → kind s = statusKind ∧ s ∈ w.views
  /-- Any other answer is that the service was pruned before, or that it lagged. -/
  refusal : ∀ e, waitLoop statusKind w.results = some (.error e) →
    (e = .servicePrunedWhileWaiting ∧ w.channel.closed = true ∧ ∀ s ∈ w.views, kind s ≠ statusKind)
      ∨ (∃ skipped, e = .observationLagged skipped) ∧ ¬ TimelyRun name w₀ moves w
  /-- A view of the kind asked for is found, once everything has been received. -/
  found : TimelyRun name w₀ moves w → w.pending = [] → (∃ s ∈ w.views, kind s = statusKind) →
    ∃ s, waitLoop statusKind w.results = some (.ok s)
  pruned : TimelyRun name w₀ moves w → .error .closed ∈ w.results →
    (∀ s ∈ w.views, kind s ≠ statusKind) →
    waitLoop statusKind w.results = some (.error .servicePrunedWhileWaiting)

/-- The loop over what a subscriber that keeps up has got. -/
theorem waitLoop_delivering {name : String} {w : Watched} (h : Delivering name w)
    (statusKind : ServiceStatusKind) :
    (∀ s, waitLoop statusKind w.results = some (.ok s) → kind s = statusKind ∧ s ∈ w.views)
      ∧ (∀ e, waitLoop statusKind w.results = some (.error e) →
        e = .servicePrunedWhileWaiting ∧ w.channel.closed = true ∧ ∀ s ∈ w.views, kind s ≠ statusKind)
      ∧ (w.pending = [] → (∃ s ∈ w.views, kind s = statusKind) →
        ∃ s, waitLoop statusKind w.results = some (.ok s))
      ∧ (.error .closed ∈ w.results → (∀ s ∈ w.views, kind s ≠ statusKind) →
        waitLoop statusKind w.results = some (.error .servicePrunedWhileWaiting)) := by
  obtain ⟨values, n, hresults, hvalues, hend⟩ := h.delivered
  have hfirst : waitLoop statusKind w.results = ((values.find? (kind · = statusKind)).map .ok).or
      (waitLoop statusKind (List.replicate n (.error .closed))) := by
    rw [hresults, waitLoop_append, waitLoop_values]
  have hviews : (values ++ w.pending).find? (kind · = statusKind)
      = w.views.find? (kind · = statusKind) := by rw [hvalues, find?_destutter]
  rw [hfirst]
  cases hfind : values.find? (kind · = statusKind) with
  | some s =>
      have hview : w.views.find? (kind · = statusKind) = some s := by
        rw [← hviews, List.find?_append, hfind]
        rfl
      have hs : kind s = statusKind :=
        of_decide_eq_true (List.find?_some (p := fun s => kind s = statusKind) hview)
      have hmem := List.mem_of_find?_eq_some hview
      refine ⟨fun t ht => ?_, fun e he => (nomatch he), fun _ _ => ⟨s, rfl⟩,
        fun _ hnone => absurd hs (hnone s hmem)⟩
      cases ht
      exact ⟨hs, hmem⟩
  | none =>
      -- the loop has seen no value of the kind
      have hnone : w.pending = [] → ∀ s ∈ w.views, kind s ≠ statusKind := by
        intro hpending s hmem
        rw [hpending, List.append_nil, hfind] at hviews
        exact fun hs => List.find?_eq_none.mp hviews.symm s hmem (decide_eq_true hs)
      cases n with
      | zero =>
          refine ⟨fun t ht => (nomatch ht), fun e he => (nomatch he), fun hpending hsome => ?_,
            fun hclosed => ?_⟩
          · obtain ⟨s, hmem, hs⟩ := hsome
            exact absurd hs (hnone hpending s hmem)
          · rw [hresults, List.replicate_zero, List.append_nil] at hclosed
            obtain ⟨_, -, heq⟩ := List.mem_map.mp hclosed
            exact nomatch heq
      | succ n =>
          obtain ⟨hclosed, hpending⟩ := hend (Nat.succ_pos n)
          refine ⟨fun t ht => (nomatch ht), fun e he => ?_, fun _ hsome => ?_, fun _ _ => rfl⟩
          · cases he
            exact ⟨rfl, hclosed, hnone hpending⟩
          · obtain ⟨s, hmem, hs⟩ := hsome
            exact absurd hs (hnone hpending s hmem)

/-! ## Subscribers that fall behind -/

/-- Views and results are only added. -/
theorem watched_grows {name : String} {w w' : Watched} {moves : List WatchMove}
    (h : Run (WatchStep name) w moves w') : w.views <+: w'.views ∧ w.results <+: w'.results := by
  induction h with
  | nil _ => exact ⟨List.prefix_refl _, List.prefix_refl _⟩
  | cons hstep _ ih =>
      obtain ⟨hviews, hresults⟩ := ih
      cases hstep with
      | received _ => exact ⟨hviews, (List.prefix_append _ _).trans hresults⟩
      | managed _ _ =>
          refine ⟨List.IsPrefix.trans ?_ hviews, hresults⟩
          dsimp only
          split
          · exact List.prefix_refl _
          · exact List.prefix_append _ _

/-- A run is timely, or timely up to a `recv` that reports a lag. -/
theorem timely_or_lagged {name : String} {w w' : Watched} {moves : List WatchMove}
    (h : Run (WatchStep name) w moves w') : TimelyRun name w moves w'
      ∨ ∃ before w₁ skipped w₂ after, TimelyRun name w before w₁
        ∧ WatchStep name w₁ (.received (.error (.lagged skipped))) w₂
        ∧ Run (WatchStep name) w₂ after w' := by
  induction h with
  | nil w => exact Or.inl (.nil w)
  | @cons w w₁ w' move moves hstep hrest ih =>
      by_cases htime : InTime w move w₁
      · rcases ih with htimely | ⟨before, w₂, skipped, w₃, after, hbefore, hlag, hafter⟩
        · exact Or.inl (.cons ⟨hstep, htime⟩ htimely)
        · exact Or.inr ⟨move :: before, w₂, skipped, w₃, after, .cons ⟨hstep, htime⟩ hbefore,
            hlag, hafter⟩
      · simp only [InTime, not_forall] at htime
        obtain ⟨result, rfl, hcurrent, hfar⟩ := htime
        have hstep' := hstep
        cases hstep' with
        | received hrecv =>
            rw [recv, Channel.recv] at hrecv
            rw [hcurrent] at hrecv
            dsimp only at hrecv
            rw [if_pos (Nat.lt_of_not_le hfar)] at hrecv
            cases hrecv
            exact Or.inr ⟨[], w, _, _, moves, .nil w, hstep, hrest⟩

/-- **What `wait_service` answers**, whether the subscriber keeps up or not. -/
theorem answers_of_run {name : String} {w w' : Watched} {moves : List WatchMove}
    (h : Delivering name w) (hrun : Run (WatchStep name) w moves w')
    (statusKind : ServiceStatusKind) : Answers name statusKind w moves w' := by
  by_cases htimely : TimelyRun name w moves w'
  · obtain ⟨hstatus, hrefusal, hfound, hpruned⟩ :=
      waitLoop_delivering (delivering_run h htimely) statusKind
    exact ⟨hstatus, fun e he => Or.inl (hrefusal e he), fun _ => hfound, fun _ => hpruned⟩
  · obtain ⟨before, w₁, skipped, w₂, after, hbefore, hlag, hafter⟩ :=
      (timely_or_lagged hrun).resolve_left htimely
    obtain ⟨hstatus, hrefusal, -, -⟩ :=
      waitLoop_delivering (delivering_run h hbefore) statusKind
    -- the loop had answered before the lag, or the lag is its answer
    have hanswer : waitLoop statusKind w'.results = (waitLoop statusKind w₁.results).or
        (some (.error (.observationLagged skipped))) := by
      obtain ⟨more, hmore⟩ := (watched_grows hafter).2
      cases hlag with
      | received _ =>
          rw [← hmore, waitLoop_append, waitLoop_append, Option.or_assoc]
          rfl
    obtain ⟨hviews, -⟩ := watched_grows (Run.cons hlag hafter)
    refine ⟨fun s hs => ?_, fun e he => ?_, fun ht => absurd ht htimely, fun ht => absurd ht htimely⟩
    · rw [hanswer] at hs
      cases hearlier : waitLoop statusKind w₁.results with
      | none => rw [hearlier] at hs; exact nomatch hs
      | some answer =>
          rw [hearlier] at hs
          cases hs
          obtain ⟨hkind, hmem⟩ := hstatus s hearlier
          exact ⟨hkind, hviews.subset hmem⟩
    · rw [hanswer] at he
      cases hearlier : waitLoop statusKind w₁.results with
      | none =>
          rw [hearlier] at he
          cases he
          exact Or.inr ⟨⟨skipped, rfl⟩, htimely⟩
      | some answer =>
          rw [hearlier] at he
          cases he
          obtain ⟨hpruned, hclosed, hnone⟩ := hrefusal e hearlier
          obtain ⟨hchannel, hsame⟩ := closed_run (Run.cons hlag hafter) hclosed
          exact Or.inl ⟨hpruned, hchannel ▸ hclosed, hsame ▸ hnone⟩

/-! ## The events of the main loop -/

theorem managed_of_lifecycle {name : String} {w : Watched} {labels : List Label} {m' : Machine}
    (h : Run Lifecycle w.machine labels m') (hfresh : SpawnsFresh m'.trace) :
    ∃ moves w', Run (WatchStep name) w moves w' ∧ w'.machine = m'
      ∧ w'.subscription = w.subscription ∧ w'.results = w.results := by
  induction labels generalizing w with
  | nil => exact ⟨[], w, .nil w, h.eq_of_nil, rfl, rfl⟩
  | cons label labels ih =>
      cases h with
      | @cons _ m₁ _ _ _ hstep hrest =>
          have hfirst : WatchStep name w (.managed label) { w with
              machine := m₁
              views := if w.channel.closed then w.views else w.views ++ (view m₁ name).toList
              channel := follow w.channel (m₁.get? name) } :=
            .managed hstep (spawnsFresh_before (run_trace hrest) hfresh)
          obtain ⟨moves, w', hrun, hmachine, hsub, hresults⟩ := ih (w := { w with
            machine := m₁
            views := if w.channel.closed then w.views else w.views ++ (view m₁ name).toList
            channel := follow w.channel (m₁.get? name) }) hrest
          exact ⟨_, w', .cons hfirst hrun, hmachine, hsub, hresults⟩

/-- Whatever the main loop does next, the subscriber can watch it. -/
theorem managed_of_step {name : String} {w : Watched} {move : Move} {m' : Machine}
    (hfresh : SpawnsFresh w.machine.trace) (h : Step w.machine move m') :
    ∃ moves w', Run (WatchStep name) w moves w' ∧ w'.machine = m'
      ∧ w'.subscription = w.subscription ∧ w'.results = w.results := by
  obtain ⟨labels, hrun⟩ := step_ok h
  refine managed_of_lifecycle hrun ?_
  cases h with
  | handled _ hfresh' => exact hfresh'
  | logged _ =>
      show SpawnsFresh (w.machine.trace ++ [])
      rw [List.append_nil]
      exact hfresh

theorem watched_fresh {name : String} {w w' : Watched} {moves : List WatchMove}
    (h : Run (WatchStep name) w moves w') (hfresh : SpawnsFresh w.machine.trace) :
    SpawnsFresh w'.machine.trace := by
  refine h.invariant (I := fun w => SpawnsFresh w.machine.trace) (fun hI hstep => ?_) hfresh
  cases hstep with
  | managed _ hfresh' => exact hfresh'
  | received _ => exact hI

/-- What a subscriber that keeps up has got. -/
structure Delivered (name : String) (w₀ : Watched) (moves : List WatchMove) (w : Watched) :
    Prop where
  /-- The values received and those on their way are the views since the
      subscription, with equal neighbours collapsed; the end comes after them all. -/
  values : ∃ values n, w.results = values.map .ok ++ List.replicate n (.error .closed)
    ∧ values ++ w.pending = w.views.destutter (· ≠ ·) ∧ (0 < n → w.pending = [])
  /-- The next value is there to be received. -/
  next : ∀ value rest, w.pending = value :: rest →
    (w.channel.unread w.subscription.position).length ≤ channelSize →
    ∃ subscription, recv w.channel w.subscription = some (.ok value, subscription)
  last : w.pending = [] → recv w.channel w.subscription
    = if w.channel.closed then some (.error .closed, w.subscription) else none
  closed : w.channel.closed = true ↔ RemovedDuring name w₀ moves w

theorem delivered_of_run {name : String} {w₀ w : Watched} {moves : List WatchMove}
    (h : Delivering name w₀) (hopen : w₀.channel.closed = false)
    (hrun : TimelyRun name w₀ moves w) : Delivered name w₀ moves w := by
  obtain ⟨values, n, hresults, hvalues, hend⟩ := (delivering_run h hrun).delivered
  refine ⟨⟨values, n, hresults, hvalues, fun hn => (hend hn).2⟩, fun value rest hpending hroom => ?_,
    fun hpending => ?_, closed_iff_removed h hopen hrun⟩
  · rw [Watched.pending] at hpending
    rw [recv]
    cases hcurrent : w.subscription.current with
    | some status =>
        rw [hcurrent] at hpending
        cases hpending
        exact ⟨_, rfl⟩
    | none =>
        rw [hcurrent] at hpending
        dsimp only
        rw [(Channel.recv_value hpending hroom).1]
        exact ⟨_, rfl⟩
  · rw [Watched.pending] at hpending
    obtain ⟨hcurrent, hunread⟩ := List.append_eq_nil_iff.mp hpending
    have hnone := Option.toList_eq_nil_iff.mp hcurrent
    rw [recv]
    rw [hnone]
    dsimp only
    rw [Channel.recv_nothing hunread]
    cases w.channel.closed
    · rfl
    · show some (_, ServiceStatusSubscription.mk none w.subscription.position) = _
      rw [← hnone]
      rfl

/-- **HEADLINE.** Between two events every service shows the view of its status; a
    subscriber that keeps up gets the view at the subscription and every later one,
    with equal neighbours collapsed, and the end once the service is removed; and
    `wait_service` answers by it.  The events of the main loop are such runs. -/
theorem subscribers_see_every_view {m : Machine} {credentials : Credentials} {name : String}
    {subscription : ServiceStatusSubscription} {moves : List WatchMove} {w : Watched}
    (hm : Reachable m) (hsub : subscribe m credentials name = .ok subscription)
    (hrun : Run (WatchStep name) (.subscribed m name subscription) moves w) :
    (∀ other s, m.get? other = some s →
        s.state.status.toApi = .ok s.state.serviceStatusPublisher.latest)
      ∧ (TimelyRun name (.subscribed m name subscription) moves w →
        Delivered name (.subscribed m name subscription) moves w)
      ∧ (∀ statusKind, Answers name statusKind (.subscribed m name subscription) moves w)
      ∧ ∀ move m', Step w.machine move m' → ∃ moves w', Run (WatchStep name) w moves w'
        ∧ w'.machine = m' ∧ w'.subscription = w.subscription ∧ w'.results = w.results := by
  have h := delivering_subscribed hm hsub
  exact ⟨(reachable_consistent hm).shown, delivered_of_run h rfl, answers_of_run h hrun,
    fun move m' => managed_of_step (watched_fresh hrun h.fresh)⟩

/-- The subscription that root takes to the service that the user 1000 has created. -/
def webSubscription : ServiceStatusSubscription := ⟨some (.running 100 none), 1⟩

/-- Root waits for it to run, and is told of its process. -/
theorem subscribers_see_every_view_web :
    waitLoop .running [.ok (.running 100 none)] = some (.ok (.running 100 none))
      ∧ .running 100 none ∈ (Watched.subscribed (machineAfter [createWeb]) "web" webSubscription).views :=
  ⟨rfl, ((subscribers_see_every_view createWeb_reachable
    (show subscribe (machineAfter [createWeb]) ⟨0, 0⟩ "web" = .ok webSubscription by decide +kernel)
    (.single (.received rfl))).2.2.1 .running).status _ rfl |>.2⟩

end BeamSubscriptions
