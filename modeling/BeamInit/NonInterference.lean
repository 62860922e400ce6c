import BeamInit.Routes
import BeamInit.Consistency

/-! # Non-interference — what a user learns about the others

    Two managers that a user cannot tell apart answer each of the user's
    requests in the same way and cannot be told apart afterwards.  The argument
    follows the operations: each looks only at the shutdown flag, at whether a
    name is taken and at the entry it names, which the caller owns. -/

namespace BeamNonInterference

open BeamApi BeamOs BeamLogs BeamPublisher BeamService BeamSpawnArgs BeamManager BeamCommands
open BeamMainLoop BeamOperations BeamConsistency
open BeamRoutes (ClientRequest FromClient)

/-! ## Computations that go the same way -/

/-- Both computations panic in the same way, or both return, with related values. -/
inductive Alike {α β : Type} (R : α → β → Prop) : Except Panic α → Except Panic β → Prop where
  | ok {a : α} {b : β} : R a b → Alike R (.ok a) (.ok b)
  | panic (p : Panic) : Alike R (.error p) (.error p)

/-- Computations that are alike stay so when alike ones follow them. -/
theorem Alike.bind {α β γ δ : Type} {R : α → β → Prop} {S : γ → δ → Prop}
    {x : Except Panic α} {y : Except Panic β} {f : α → Except Panic γ} {g : β → Except Panic δ}
    (h : Alike R x y) (hfg : ∀ a b, R a b → Alike S (f a) (g b)) :
    Alike S (x >>= f) (y >>= g) := by
  cases h with
  | ok hR => exact hfg _ _ hR
  | panic p => exact .panic p

/-- A computation is like itself. -/
theorem Alike.refl {α : Type} (x : Except Panic α) : Alike Eq x x := by
  cases x with
  | ok a => exact .ok rfl
  | error p => exact .panic p

/-- The same computation, continued in two ways that go the same way. -/
theorem Alike.bind_same {α γ δ : Type} {S : γ → δ → Prop} (x : Except Panic α)
    {f : α → Except Panic γ} {g : α → Except Panic δ} (hfg : ∀ a, Alike S (f a) (g a)) :
    Alike S (x >>= f) (x >>= g) :=
  (Alike.refl x).bind fun a _ hab => hab ▸ hfg a

/-! ## Agreement -/

/-- The user `u` cannot tell the two managers apart: the flag, the names in use
    and the entries of `u` are the same. -/
structure Agree (u : Nat) (m₁ m₂ : Machine) : Prop where
  shutdown : m₁.mgr.shutdown = m₂.mgr.shutdown
  names : ∀ name, (m₁.get? name).isSome = (m₂.get? name).isSome
  own : ∀ name s, s.config.credentials.uid = u → (m₁.get? name = some s ↔ m₂.get? name = some s)
  userEnvFiles : m₁.mgr.userEnvFiles = m₂.mgr.userEnvFiles
  logRetentionLines : m₁.mgr.logRetentionLines = m₂.mgr.logRetentionLines

/-- The same result, and machines that agree. -/
def AgreeOutcome {α : Type} (u : Nat) (x y : Outcome α) : Prop := x.1 = y.1 ∧ Agree u x.2 y.2

section Agree

variable {u : Nat} {m₁ m₂ : Machine} {credentials : Credentials} {name : String} {os : Os}

/-- Writing the same service on both sides keeps the machines in agreement. -/
theorem Agree.put (h : Agree u m₁ m₂) (name : String) (s : Service) (out₁ out₂ : List Effect) :
    Agree u (m₁.put name s out₁) (m₂.put name s out₂) where
  shutdown := h.shutdown
  names other := by
    rw [get?_put, get?_put]
    by_cases hname : name = other
    · rw [if_pos hname, if_pos hname]
    · rw [if_neg hname, if_neg hname]; exact h.names other
  own other t ht := by
    rw [get?_put, get?_put]
    by_cases hname : name = other
    · rw [if_pos hname, if_pos hname]
    · rw [if_neg hname, if_neg hname]; exact h.own other t ht
  userEnvFiles := h.userEnvFiles
  logRetentionLines := h.logRetentionLines

/-- A machine agrees with itself. -/
theorem Agree.refl (u : Nat) (m : Machine) : Agree u m m :=
  ⟨rfl, fun _ => rfl, fun _ _ _ => Iff.rfl, rfl, rfl⟩

/-- What other users keep under a name in use is hidden. -/
theorem Agree.put_foreign (h : Agree u m₁ m₂) (name : String) {s₁ s₂ : Service}
    (h₁ : s₁.config.credentials.uid ≠ u) (h₂ : s₂.config.credentials.uid ≠ u)
    (out₁ out₂ : List Effect) : Agree u (m₁.put name s₁ out₁) (m₂.put name s₂ out₂) where
  shutdown := h.shutdown
  names other := by
    rw [get?_put, get?_put]
    by_cases hname : name = other
    · rw [if_pos hname, if_pos hname]; rfl
    · rw [if_neg hname, if_neg hname]; exact h.names other
  own other t ht := by
    rw [get?_put, get?_put]
    by_cases hname : name = other
    · rw [if_pos hname, if_pos hname]
      exact ⟨fun heq => absurd (Option.some.inj heq ▸ ht) h₁,
        fun heq => absurd (Option.some.inj heq ▸ ht) h₂⟩
    · rw [if_neg hname, if_neg hname]; exact h.own other t ht
  userEnvFiles := h.userEnvFiles
  logRetentionLines := h.logRetentionLines

/-- So does removing a service on both sides. -/
theorem Agree.remove (h : Agree u m₁ m₂) (name : String) (out₁ out₂ : List Effect) :
    Agree u (m₁.remove name out₁) (m₂.remove name out₂) where
  shutdown := h.shutdown
  names other := by
    rw [get?_remove, get?_remove]
    by_cases hname : name = other
    · rw [if_pos hname, if_pos hname]
    · rw [if_neg hname, if_neg hname]; exact h.names other
  own other t ht := by
    rw [get?_remove, get?_remove]
    by_cases hname : name = other
    · rw [if_pos hname, if_pos hname]
    · rw [if_neg hname, if_neg hname]; exact h.own other t ht
  userEnvFiles := h.userEnvFiles
  logRetentionLines := h.logRetentionLines

/-- Effects alone do not disturb the agreement. -/
theorem Agree.emit (h : Agree u m₁ m₂) (out₁ out₂ : List Effect) :
    Agree u (m₁.emit out₁) (m₂.emit out₂) :=
  ⟨h.shutdown, h.names, h.own, h.userEnvFiles, h.logRetentionLines⟩

/-- A service of the user is the same on both sides. -/
theorem get?_of_own (h : Agree u m₁ m₂) {s : Service} (hget : m₁.get? name = some s)
    (hown : s.config.credentials.uid = u) : m₁.get? name = m₂.get? name :=
  hget.trans ((h.own name s hown).mp hget).symm

/-- **The owner check hides the entry**: an unprivileged caller gets its own entry
    or an error that does not depend on whose the entry is. -/
theorem getService_agree (h : Agree u m₁ m₂) (hu : u ≠ 0) (huid : credentials.uid = u) :
    getService m₁ credentials name = getService m₂ credentials name := by
  have hforeign : ∀ s : Service, s.config.credentials.uid ≠ u →
      s.checkCredentials credentials = .error .invalidCredentials := by
    intro s hs
    exact if_pos ⟨huid ▸ hu, huid ▸ Ne.symm hs⟩
  unfold getService
  cases hget₁ : m₁.get? name with
  | none =>
      have hnone : m₂.get? name = none := by
        have := h.names name
        rw [hget₁] at this
        exact Option.isNone_iff_eq_none.mp (by rw [← Option.not_isSome, ← this]; rfl)
      rw [hnone]
  | some s₁ =>
      by_cases hown₁ : s₁.config.credentials.uid = u
      · rw [(h.own name s₁ hown₁).mp hget₁]
      · have hsome := h.names name
        rw [hget₁] at hsome
        obtain ⟨s₂, hget₂⟩ := Option.isSome_iff_exists.mp hsome.symm
        -- had `m₂` an own entry there, `m₁` would have it too
        have hown₂ : s₂.config.credentials.uid ≠ u := by
          intro hown₂
          have := (h.own name s₂ hown₂).mpr hget₂
          rw [hget₁] at this
          exact hown₁ (Option.some.inj this ▸ hown₂)
        rw [hget₂]
        dsimp only
        rw [hforeign s₁ hown₁, hforeign s₂ hown₂]

/-- A lookup by the user gives the same on both sides: a service of another user is refused
    like one that does not exist. -/
theorem getServiceMut_agree (h : Agree u m₁ m₂) (hu : u ≠ 0) (huid : credentials.uid = u) :
    getServiceMut m₁ credentials name = getServiceMut m₂ credentials name := by
  rw [getServiceMut_eq, getServiceMut_eq, getService_agree h hu huid]

/-- What an unprivileged caller gets is its own. -/
theorem own_of_getService (hu : u ≠ 0) (huid : credentials.uid = u) {s : Service}
    (hget : getService m₁ credentials name = .ok s) :
    m₁.get? name = some s ∧ s.config.credentials.uid = u := by
  obtain ⟨hs, hcred⟩ := getService_iff.mp hget
  rcases Service.checkCredentials_iff.mp hcred with hroot | hsame
  · exact absurd (huid.symm.trans hroot) hu
  · exact ⟨hs, hsame.symm.trans huid⟩

/-! ## Operations on an entry that is the same on both sides -/

/-- A start goes the same way on both sides. -/
theorem startService_agree {os : StartOutcome} (h : Agree u m₁ m₂)
    (hget : m₁.get? name = m₂.get? name) (credentials : Credentials) (reason : StartReason) :
    Alike (AgreeOutcome u) (startService os m₁ credentials name reason)
      (startService os m₂ credentials name reason) := by
  unfold startService
  rw [h.shutdown, hget]
  by_cases hshut : m₂.mgr.shutdown = true
  · rw [if_pos hshut, if_pos hshut]
    exact .ok ⟨rfl, h⟩
  rw [if_neg hshut, if_neg hshut]
  cases m₂.get? name with
  | none => exact .ok ⟨rfl, h⟩
  | some s =>
      dsimp only
      cases s.checkCredentials credentials with
      | error e => exact .ok ⟨rfl, h⟩
      | ok _ => exact .bind_same _ fun _ => .ok ⟨rfl, h.put _ _ _ _⟩

/-- A termination goes the same way on both sides. -/
theorem terminateServiceInner_agree (h : Agree u m₁ m₂) (hget : m₁.get? name = m₂.get? name)
    (credentials : Credentials) (requested : AfterStop) :
    Alike (AgreeOutcome u) (terminateServiceInner os m₁ credentials name requested)
      (terminateServiceInner os m₂ credentials name requested) := by
  unfold terminateServiceInner
  rw [hget]
  cases m₂.get? name with
  | none => exact .ok ⟨rfl, h⟩
  | some s =>
      dsimp only
      cases s.state.status with
      | stopped | exited _ | error _ =>
          dsimp only
          unfold terminateDead
          cases requested with
          | stop => exact .bind_same _ fun _ => .ok ⟨rfl, h.put _ _ _ _⟩
          | prune => exact .ok ⟨rfl, h.remove _ _ _⟩
          | restart reason =>
              exact startService_agree (h.put _ _ _ _) (get?_put_self.trans get?_put_self.symm) _ _
      | stopping _ _ _ => exact .bind_same _ fun _ => .ok ⟨rfl, h.put _ _ _ _⟩
      | frozen _ _ => exact .bind_same _ fun _ => .bind_same _ fun _ => .ok ⟨rfl, h.put _ _ _ _⟩
      | running _ _ =>
          exact .bind_same _ fun _ => .bind_same _ fun _ => .bind_same _ fun _ =>
            .ok ⟨rfl, h.put _ _ _ _⟩
      | dummy => exact .panic _

/-! ## Requests of an unprivileged user -/

/-- A stop, prune or restart goes the same way on both sides. -/
theorem stopServiceCmd_agree (h : Agree u m₁ m₂) (hu : u ≠ 0) (huid : credentials.uid = u)
    (request : AfterStop) :
    Alike (AgreeOutcome u) (stopServiceCmd os m₁ credentials name request)
      (stopServiceCmd os m₂ credentials name request) := by
  rw [stopServiceCmd_eq, stopServiceCmd_eq, ← getService_agree h hu huid, h.shutdown]
  cases hget : getService m₁ credentials name with
  | error e => exact .ok ⟨rfl, h⟩
  | ok s =>
      obtain ⟨hs, hown⟩ := own_of_getService hu huid hget
      dsimp only
      split_ifs
      · exact .ok ⟨rfl, h⟩
      · exact .ok ⟨rfl, h⟩
      · exact terminateServiceInner_agree h (get?_of_own h hs hown) _ _

/-- So does any operation that looks at one entry. -/
theorem onEntry_agree (change : Service → Except Panic (Service × List Effect))
    (h : Agree u m₁ m₂) (hu : u ≠ 0) (huid : credentials.uid = u) :
    Alike (AgreeOutcome u) (onEntry m₁ credentials name change)
      (onEntry m₂ credentials name change) := by
  rw [onEntry, onEntry, ← getServiceMut_agree h hu huid]
  cases getServiceMut m₁ credentials name with
  | error e => exact .ok ⟨rfl, h⟩
  | ok s => exact .bind_same _ fun _ => .ok ⟨rfl, h.put _ _ _ _⟩

/-- So does a freeze. -/
theorem freezeService_agree (h : Agree u m₁ m₂) (hu : u ≠ 0) (huid : credentials.uid = u) :
    Alike (AgreeOutcome u) (freezeService os m₁ credentials name)
      (freezeService os m₂ credentials name) := by
  rw [freezeService_eq, freezeService_eq]
  exact onEntry_agree _ h hu huid

/-- So does a thaw. -/
theorem thawService_agree (h : Agree u m₁ m₂) (hu : u ≠ 0) (huid : credentials.uid = u) :
    Alike (AgreeOutcome u) (thawService os m₁ credentials name)
      (thawService os m₂ credentials name) := by
  rw [thawService_eq, thawService_eq]
  exact onEntry_agree _ h hu huid

/-- So does a notification about the terminal. -/
theorem notifyPty_agree (cmd : MonitorCommand) (h : Agree u m₁ m₂) (hu : u ≠ 0)
    (huid : credentials.uid = u) :
    Alike (AgreeOutcome u) (notifyPty cmd os m₁ credentials name)
      (notifyPty cmd os m₂ credentials name) := by
  unfold notifyPty
  rw [← getServiceMut_agree h hu huid]
  cases getServiceMut m₁ credentials name with
  | error e => exact .ok ⟨rfl, h⟩
  | ok s =>
      dsimp only
      cases s.state.status with
      | running process _ | frozen process _ =>
          dsimp only
          cases process.monitorTx with
          | none => exact .ok ⟨rfl, h⟩
          | some tx => exact .bind_same _ fun _ => .bind_same _ fun _ => .ok ⟨rfl, h.emit _ _⟩
      | stopped | stopping _ _ _ | exited _ | error _ => exact .ok ⟨rfl, h⟩
      | dummy => exact .panic _

/-- So does a signal. -/
theorem sendSignal_agree (h : Agree u m₁ m₂) (hu : u ≠ 0) (huid : credentials.uid = u) (sig : Int) :
    Alike (AgreeOutcome u) (sendSignal os m₁ credentials name sig)
      (sendSignal os m₂ credentials name sig) := by
  unfold sendSignal
  rw [← getServiceMut_agree h hu huid]
  cases getServiceMut m₁ credentials name with
  | error e => exact .ok ⟨rfl, h⟩
  | ok s =>
      dsimp only
      by_cases hsig : sig ≤ 0 ∨ sig ≥ 32
      · rw [if_pos hsig, if_pos hsig]
        exact .ok ⟨rfl, h⟩
      · rw [if_neg hsig, if_neg hsig]
        cases s.state.status with
        | running _ _ | frozen _ _ | stopping _ _ _ =>
            exact .bind_same _ fun _ => .ok ⟨rfl, h.emit _ _⟩
        | stopped | exited _ | error _ => exact .ok ⟨rfl, h⟩
        | dummy => exact .panic _

/-- Creation depends on the flag and on whether the name is taken. -/
theorem createService_agree (h : Agree u m₁ m₂) (name : String) (config : ServiceConfig) :
    (∃ e, createService m₁ name config = (.error e, m₁)
        ∧ createService m₂ name config = (.error e, m₂))
      ∨ ∃ s, createService m₁ name config = (.ok (), m₁.put name s [])
        ∧ createService m₂ name config = (.ok (), m₂.put name s []) := by
  unfold createService
  rw [h.shutdown, h.logRetentionLines]
  by_cases hshut : m₂.mgr.shutdown = true
  · rw [if_pos hshut, if_pos hshut]; exact Or.inl ⟨_, rfl, rfl⟩
  rw [if_neg hshut, if_neg hshut]
  by_cases hempty : name = ""
  · rw [if_pos hempty, if_pos hempty]; exact Or.inl ⟨_, rfl, rfl⟩
  rw [if_neg hempty, if_neg hempty]
  by_cases hlong : name.utf8ByteSize > 255
  · rw [if_pos hlong, if_pos hlong]; exact Or.inl ⟨_, rfl, rfl⟩
  rw [if_neg hlong, if_neg hlong]
  cases config.validate with
  | error e => exact Or.inl ⟨_, rfl, rfl⟩
  | ok _ =>
      have hname := h.names name
      dsimp only
      cases hget₁ : m₁.get? name with
      | some s₁ =>
          rw [hget₁] at hname
          obtain ⟨s₂, hget₂⟩ := Option.isSome_iff_exists.mp hname.symm
          rw [hget₂]
          exact Or.inl ⟨_, rfl, rfl⟩
      | none =>
          rw [hget₁] at hname
          have hget₂ : m₂.get? name = none := by
            cases hget₂ : m₂.get? name with
            | none => rfl
            | some s₂ => rw [hget₂] at hname; exact nomatch hname
          rw [hget₂]
          exact Or.inr ⟨_, rfl, rfl⟩

/-! ## The list of services -/

/-- The entries whose owner check the caller passes, in key order. -/
def ownEntries (m : Machine) (credentials : Credentials) : List (String × Service) :=
  m.mgr.services.toList.filter
    (fun entry => (entry.2.checkCredentials credentials).toOption.isSome)

/-- The entries a user is shown are the services of this user. -/
theorem mem_ownEntries {m : Machine} (hu : u ≠ 0) (huid : credentials.uid = u)
    {entry : String × Service} :
    entry ∈ ownEntries m credentials
      ↔ m.get? entry.1 = some entry.2 ∧ entry.2.config.credentials.uid = u := by
  rw [ownEntries]
  rw [List.mem_filter]
  refine and_congr Std.ExtTreeMap.mem_toList_iff_getElem?_eq_some ?_
  have hcheck : (entry.2.checkCredentials credentials).toOption.isSome = true
      ↔ entry.2.checkCredentials credentials = .ok () := by
    cases entry.2.checkCredentials credentials with
    | ok _ => exact ⟨fun _ => rfl, fun _ => rfl⟩
    | error e => exact ⟨(nomatch ·), (nomatch ·)⟩
  rw [hcheck, Service.checkCredentials_iff]
  constructor
  · rintro (hroot | hsame)
    · exact absurd (huid.symm.trans hroot) hu
    · exact hsame.symm.trans huid
  · exact fun hown => Or.inr (huid.trans hown.symm)

/-- A user is shown the same entries on both sides. -/
theorem ownEntries_agree (h : Agree u m₁ m₂) (hu : u ≠ 0) (huid : credentials.uid = u) :
    ownEntries m₁ credentials = ownEntries m₂ credentials := by
  -- both lists are strictly sorted by name, so having the same members is enough
  have hsorted : ∀ m : Machine, (ownEntries m credentials).Pairwise
      (fun a b => compare a.1 b.1 = .lt) :=
    fun m => Std.ExtTreeMap.ordered_keys_toList.sublist List.filter_sublist
  have hnodup : ∀ m : Machine, (ownEntries m credentials).Nodup := fun m =>
    (hsorted m).imp fun {a _} hlt heq => by
      have hself : compare a.1 a.1 = .eq := Std.ReflCmp.compare_self
      rw [← heq, hself] at hlt
      exact nomatch hlt
  refine List.Perm.eq_of_pairwise (fun a b _ _ hab hba => ?_) (hsorted m₁) (hsorted m₂)
    ((List.perm_ext_iff_of_nodup (hnodup m₁) (hnodup m₂)).mpr fun entry => ?_)
  · have hswap : compare a.1 b.1 = (compare b.1 a.1).swap := Std.OrientedCmp.eq_swap
    rw [hswap, hba] at hab
    exact nomatch hab
  · rw [mem_ownEntries hu huid, mem_ownEntries hu huid]
    constructor
    · exact fun ⟨hget, hown⟩ => ⟨(h.own _ _ hown).mp hget, hown⟩
    · exact fun ⟨hget, hown⟩ => ⟨(h.own _ _ hown).mpr hget, hown⟩

/-- A list request is answered the same on both sides. -/
theorem listServices_agree (h : Agree u m₁ m₂) (hu : u ≠ 0) (huid : credentials.uid = u) :
    listServices m₁ credentials = listServices m₂ credentials :=
  congrArg (List.map fun (entry : String × Service) => (entry.1, entry.2.state.status))
    (ownEntries_agree h hu huid)

/-! ## Events -/

/-- An answer without data tells nothing more than the outcome does. -/
theorem answerDone_agree {x y : Except Panic (Outcome (Except ServiceError Unit))}
    (h : Alike (AgreeOutcome u) x y) :
    Alike (AgreeOutcome u) (do return answerDone (← x) : Except Panic _)
      (do return answerDone (← y) : Except Panic _) :=
  h.bind fun _ _ hab => .ok ⟨by unfold answerDone; rw [hab.1], hab.2⟩

/-- Every command of a client goes the same way on both sides. -/
theorem handleApiCommand_agree (h : Agree u m₁ m₂) (hu : u ≠ 0) (huid : credentials.uid = u)
    {cmd : Command} (hnotForce : ∀ name token, cmd ≠ .forceKillService name token) :
    Alike (AgreeOutcome u) (handleApiCommand os m₁ cmd credentials)
      (handleApiCommand os m₂ cmd credentials) := by
  cases cmd with
  | createService name service =>
      have henv : serviceEnvironment os m₁ credentials name service.env
          = serviceEnvironment os m₂ credentials name service.env := by
        unfold serviceEnvironment
        rw [h.userEnvFiles]
      unfold handleApiCommand
      dsimp only
      rw [henv]
      cases serviceEnvironment os m₂ credentials name service.env with
      | error e => exact .ok ⟨rfl, h⟩
      | ok env =>
          dsimp only
          rcases createService_agree h name (requestedConfig service env credentials) with
            ⟨e, h₁, h₂⟩ | ⟨s, h₁, h₂⟩
          · rw [h₁, h₂]
            exact .ok ⟨rfl, h⟩
          · rw [h₁, h₂]
            refine (startService_agree (h.put name s [] []) (get?_put_self.trans get?_put_self.symm)
              credentials .user).bind fun _ _ hab => .ok ⟨?_, hab.2⟩
            exact congrArg (Except.map fun () => Response.created service) hab.1
  | restartService name | stopService name prune =>
      exact answerDone_agree (stopServiceCmd_agree h hu huid _)
  | freezeService name => exact answerDone_agree (freezeService_agree h hu huid)
  | thawService name => exact answerDone_agree (thawService_agree h hu huid)
  | showService name =>
      unfold handleApiCommand
      dsimp only
      rw [← getService_agree h hu huid]
      cases getService m₁ credentials name with
      | error e => exact .ok ⟨rfl, h⟩
      | ok s => exact .bind_same _ fun _ => .ok ⟨rfl, h⟩
  | listServices =>
      unfold handleApiCommand
      dsimp only
      rw [listServices_agree h hu huid]
      exact .bind_same _ fun _ => .ok ⟨rfl, h⟩
  | serviceLogs name follow =>
      unfold handleApiCommand logReader copyLogs
      dsimp only
      rw [← getService_agree h hu huid]
      cases follow <;> exact .ok ⟨rfl, h⟩
  | notifyPtyAttached name => exact answerDone_agree (notifyPty_agree .foreground h hu huid)
  | notifyPtyDetached name => exact answerDone_agree (notifyPty_agree .background h hu huid)
  | sendSignal name sig => exact answerDone_agree (sendSignal_agree h hu huid sig)
  | forceKillService name token => exact absurd rfl (hnotForce name token)

end Agree

/-- **HEADLINE.** Two managers that the user `u` cannot tell apart answer every
    request of `u` alike, given the same answers of the system, and cannot be
    told apart afterwards. -/
theorem requests_do_not_interfere {u : Nat} {m₁ m₂ : Machine} {os : Os} {request : ClientRequest}
    {credentials : Credentials} {event : Event} (hu : u ≠ 0) (huid : credentials.uid = u)
    (hevent : request.event credentials = some event) (h : Agree u m₁ m₂) :
    Alike (AgreeOutcome u) (handleEvent os m₁ event) (handleEvent os m₂ event) := by
  have hclient := ClientRequest.event_fromClient hevent
  cases hclient with
  | command hnotForce =>
      exact (handleApiCommand_agree h hu huid hnotForce).bind fun _ _ hab =>
        .ok ⟨congrArg Reply.response hab.1, hab.2⟩
  | @getPty name =>
      have hpty : getPty os m₁ credentials name = getPty os m₂ credentials name := by
        unfold getPty
        rw [getService_agree h hu huid]
      unfold handleEvent
      dsimp only
      rw [hpty]
      exact .bind_same _ fun _ => .ok ⟨rfl, h⟩
  | @waitService name =>
      have hsub : subscribe m₁ credentials name = subscribe m₂ credentials name := by
        unfold subscribe
        rw [getService_agree h hu huid]
      unfold handleEvent
      dsimp only
      rw [hsub]
      exact .ok ⟨rfl, h⟩

/-- An entry of the user 2000. -/
def dbEntry (status : ServiceStatus) : Service where
  config := requestedConfig webService ∅ ⟨2000, 2000⟩
  state := {
    status := status
    logs := Logs.new fiveLines
    automaticRestartAttempts := 0
    livenessProbe := none
    serviceStatusPublisher := .new .stopped }

/-- Here the user 1000, who asks for the service of the user 2000: stopped or
    running, the answer is the same. -/
theorem requests_do_not_interfere_db :
    Alike (AgreeOutcome 1000)
      (handleEvent (steadyOs 0 1 []) ((machineAfter [createWeb]).put "db" (dbEntry .stopped) [])
        (BeamRoutes.showService ⟨1000, 1000⟩ "db"))
      (handleEvent (steadyOs 0 1 []) ((machineAfter [createWeb]).put "db"
        (dbEntry (.running ⟨200, none, 1⟩ none)) []) (BeamRoutes.showService ⟨1000, 1000⟩ "db")) :=
  have hevent : (ClientRequest.showService "db").event ⟨1000, 1000⟩
      = some (BeamRoutes.showService ⟨1000, 1000⟩ "db") := rfl
  requests_do_not_interfere (by decide) rfl hevent
    ((Agree.refl 1000 _).put_foreign "db" (by decide) (by decide) [] [])

end BeamNonInterference
