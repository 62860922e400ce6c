import BeamInit.Consistency

/-! # Main pids — the table stores exactly the unreaped main processes

    A read-out of the accounts: a pid that `start_service` obtained and `waitpid`
    has not returned is the `main_pid` of one live service, and a live service
    never shows a pid that was reaped. -/

namespace BeamMainPids

open BeamApi BeamService BeamManager BeamMainLoop BeamOperations BeamConsistency

/-- The service `name` is Running, Frozen or Stopping with the main pid `pid`. -/
def StoresPid (m : Machine) (name : String) (pid : Pid) : Prop :=
  ∃ service process, m.get? name = some service
    ∧ service.state.status.process? = some process ∧ process.mainPid = pid

theorem storesPid_iff {m : Machine} {name : String} {pid : Pid} :
    StoresPid m name pid ↔ ∃ process, holder m name = some process ∧ process.mainPid = pid := by
  constructor
  · rintro ⟨service, process, hget, hp, hpid⟩
    exact ⟨process, Option.bind_eq_some_iff.mpr ⟨service, hget, hp⟩, hpid⟩
  · rintro ⟨process, hheld, hpid⟩
    obtain ⟨service, hget, hp⟩ := Option.bind_eq_some_iff.mp hheld
    exact ⟨service, process, hget, hp, hpid⟩

/-- **HEADLINE.** In every state between two events the main pids spawned and not
    yet reaped are exactly those stored in live services, each in one service. -/
theorem main_pids_tracked {m : Machine} (h : Reachable m) (pid : Pid) :
    ((∃ child ∈ unreaped m.trace, child.mainPid = pid) ↔ ∃ name, StoresPid m name pid)
      ∧ ∀ name name', StoresPid m name pid → StoresPid m name' pid → name = name' := by
  have haccounts := (reachable_consistent h).accounts
  have hunique : ∀ name name', StoresPid m name pid → StoresPid m name' pid → name = name' := by
    intro name name' hname hname'
    obtain ⟨process, hheld, hpid⟩ := storesPid_iff.mp hname
    obtain ⟨process', hheld', hpid'⟩ := storesPid_iff.mp hname'
    exact haccounts.unique hheld hheld' (hpid.trans hpid'.symm)
  refine ⟨(haccounts.outstanding_iff pid).trans ⟨?_, ?_⟩, hunique⟩
  · rintro ⟨name, hname, -⟩
    exact ⟨name, storesPid_iff.mpr hname⟩
  · rintro ⟨name, hname⟩
    exact ⟨name, storesPid_iff.mp hname,
      fun other hother => hunique other name (storesPid_iff.mpr hother) hname⟩

/-- Here the process 100 of `web`. -/
theorem main_pids_tracked_web :
    ((∃ child ∈ unreaped (machineAfter [createWeb]).trace, child.mainPid = 100)
        ↔ ∃ name, StoresPid (machineAfter [createWeb]) name 100)
      ∧ ∀ name name', StoresPid (machineAfter [createWeb]) name 100 →
        StoresPid (machineAfter [createWeb]) name' 100 → name = name' :=
  main_pids_tracked createWeb_reachable 100

end BeamMainPids
