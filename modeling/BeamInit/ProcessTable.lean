import Mathlib

/-! # Process table — groups, sessions and whom a signal finds

    The kernel keeps a process in its table until it is waited for.  A signal to a
    group is sent to every process that the table has in the group; one that has
    terminated is found like the others and takes no signal.  The foreground group
    of a terminal is chosen by the session that the table has the group in. -/

namespace ProcessTable

structure Process where
  group : Int
  session : Int
  /-- It has terminated, and nobody has waited for it. -/
  zombie : Bool
deriving DecidableEq

/-- The processes by their pids. -/
abbrev Table := Std.ExtTreeMap Int Process compare

def EPERM : Int := 1
def ESRCH : Int := 3

/-! ## Signals -/

/-- The processes of a group. -/
def members (table : Table) (pgid : Int) : List Int :=
  (table.toList.filter (fun entry => entry.2.group = pgid)).map Prod.fst

/-- The process has not terminated. -/
def alive (table : Table) (pid : Int) : Bool := table[pid]?.any (fun process => !process.zombie)

/-- The processes `kill` finds: one, or a group if `pid` is negative.  Not for the
    groups 0 and 1, which `kill` takes otherwise. -/
def targets (table : Table) (pid : Int) : List Int :=
  if pid < 0 then members table (-pid) else if pid ∈ table then [pid] else []

/-- `kill`: the processes that take the signal, or ESRCH if none is found. -/
def kill (table : Table) (pid : Int) : Except Int (List Int) :=
  if targets table pid = [] then .error ESRCH else .ok ((targets table pid).filter (alive table))

/-- The members of a group are the processes that have it. -/
theorem mem_members {table : Table} {pid pgid : Int} :
    pid ∈ members table pgid ↔ ∃ process, table[pid]? = some process ∧ process.group = pgid := by
  rw [members, List.mem_map]
  constructor
  · rintro ⟨entry, hmem, rfl⟩
    rw [List.mem_filter, decide_eq_true_iff] at hmem
    exact ⟨entry.2, Std.ExtTreeMap.mem_toList_iff_getElem?_eq_some.mp hmem.1, hmem.2⟩
  · rintro ⟨process, hget, hgroup⟩
    refine ⟨(pid, process), List.mem_filter.mpr ⟨?_, decide_eq_true hgroup⟩, rfl⟩
    exact Std.ExtTreeMap.mem_toList_iff_getElem?_eq_some.mpr hget

/-- A group is empty if no process, zombies included, is in it. -/
theorem members_eq_nil {table : Table} {pgid : Int} :
    members table pgid = [] ↔ ∀ (pid : Int) process, table[pid]? = some process →
      process.group ≠ pgid := by
  rw [List.eq_nil_iff_forall_not_mem]
  constructor
  · intro h pid process hget hgroup
    exact h pid (mem_members.mpr ⟨process, hget, hgroup⟩)
  · intro h pid hmem
    obtain ⟨process, hget, hgroup⟩ := mem_members.mp hmem
    exact h pid process hget hgroup

/-- A process is alive if the table has it and it is no zombie. -/
theorem alive_iff {table : Table} {pid : Int} :
    alive table pid = true ↔ ∃ process, table[pid]? = some process ∧ process.zombie = false := by
  rw [alive, Option.any_eq_true]
  simp only [Bool.not_eq_true']

theorem mem_of_alive {table : Table} {pid : Int} (h : alive table pid = true) : pid ∈ table := by
  obtain ⟨process, hget, -⟩ := alive_iff.mp h
  rw [Std.ExtTreeMap.mem_iff_isSome_getElem?, hget]
  rfl

/-- A signal to a group. -/
theorem kill_group (table : Table) {pgid : Int} (h : 0 < pgid) :
    kill table (-pgid)
      = if members table pgid = [] then .error ESRCH
        else .ok ((members table pgid).filter (alive table)) := by
  have htargets : targets table (-pgid) = members table pgid := by
    rw [targets, if_pos (Int.neg_neg_of_pos h), neg_neg]
  rw [kill, htargets]

/-- A signal to a process that has not terminated. -/
theorem kill_process {table : Table} {pid : Int} (h : 0 < pid) (halive : alive table pid = true) :
    kill table pid = .ok [pid] := by
  have htargets : targets table pid = [pid] := by
    rw [targets, if_neg (Int.not_lt.mpr (Int.le_of_lt h)), if_pos (mem_of_alive halive)]
  rw [kill, htargets, if_neg (List.cons_ne_nil _ _), List.filter_singleton, halive]
  rfl

/-! ## Sessions -/

/-- The session of a group, or of the process with that pid if the group is empty. -/
def sessionOf (table : Table) (pgid : Int) : Option Int :=
  match members table pgid with
  | pid :: _ => table[pid]?.map Process.session
  | [] => table[pgid]?.map Process.session

/-- `tcsetpgrp` by a process of the terminal's session: the group has to be in it. -/
def tcsetpgrp (table : Table) (session pgid : Int) : Except Int Unit :=
  match sessionOf table pgid with
  | none => .error ESRCH
  | some other => if other = session then .ok () else .error EPERM

/-- The processes of a group are in one session. -/
def Coherent (table : Table) : Prop :=
  ∀ (p q : Int) a b, table[p]? = some a → table[q]? = some b → a.group = b.group →
    a.session = b.session

/-- `tcsetpgrp` succeeds for the groups of the session. -/
theorem tcsetpgrp_eq_ok {table : Table} {session pgid : Int} :
    tcsetpgrp table session pgid = .ok () ↔ sessionOf table pgid = some session := by
  rw [tcsetpgrp]
  cases sessionOf table pgid with
  | none => exact iff_of_false (fun h => by cases h) fun h => by cases h
  | some other =>
      by_cases hsame : other = session
      · exact iff_of_true (if_pos hsame) (congrArg some hsame)
      · refine iff_of_false (fun h => ?_) fun h => hsame (Option.some.inj h)
        dsimp only at h
        rw [if_neg hsame] at h
        cases h

/-- Any member tells the session of a group. -/
theorem sessionOf_member {table : Table} (hcoherent : Coherent table) {pid pgid : Int}
    {process : Process} (hget : table[pid]? = some process) (hgroup : process.group = pgid) :
    sessionOf table pgid = some process.session := by
  rw [sessionOf]
  cases hmembers : members table pgid with
  | nil => exact absurd hgroup (members_eq_nil.mp hmembers pid process hget)
  | cons first rest =>
      have hfirst : first ∈ members table pgid := hmembers ▸ List.mem_cons_self
      obtain ⟨other, hother, hsame⟩ := mem_members.mp hfirst
      dsimp only
      rw [hother, Option.map_some, hcoherent first pid other process hother hget
        (hsame.trans hgroup.symm)]

/-- **The session a group is taken to be in**: that of its members, or of the process
    that once led it. -/
theorem sessionOf_iff {table : Table} (hcoherent : Coherent table) {pgid session : Int} :
    sessionOf table pgid = some session ↔
      (∃ (pid : Int) (process : Process), table[pid]? = some process ∧ process.group = pgid
        ∧ process.session = session)
      ∨ members table pgid = [] ∧ ∃ process, table[pgid]? = some process
        ∧ process.session = session := by
  constructor
  · intro h
    rw [sessionOf] at h
    cases hmembers : members table pgid with
    | nil =>
        rw [hmembers] at h
        obtain ⟨process, hget, hsession⟩ := Option.map_eq_some_iff.mp h
        exact .inr ⟨rfl, process, hget, hsession⟩
    | cons first rest =>
        rw [hmembers] at h
        obtain ⟨process, hget, hsession⟩ := Option.map_eq_some_iff.mp h
        have hfirst : first ∈ members table pgid := hmembers ▸ List.mem_cons_self
        obtain ⟨other, hother, hgroup⟩ := mem_members.mp hfirst
        cases hget.symm.trans hother
        exact .inl ⟨first, process, hget, hgroup, hsession⟩
  · rintro (⟨pid, process, hget, hgroup, rfl⟩ | ⟨hempty, process, hget, rfl⟩)
    · exact sessionOf_member hcoherent hget hgroup
    · rw [sessionOf, hempty]
      exact congrArg (Option.map Process.session) hget

/-! ## Processes that terminate -/

/-- The process terminates. -/
def terminate (table : Table) (pid : Int) : Table :=
  table.alter pid (Option.map (fun process => { process with zombie := true }))

/-- A process that terminates becomes a zombie, and the others stay as they are. -/
theorem getElem?_terminate (table : Table) (pid other : Int) :
    (terminate table pid)[other]?
      = if pid = other then table[pid]?.map (fun process => { process with zombie := true })
        else table[other]? := by
  rw [terminate, Std.ExtTreeMap.getElem?_alter]
  simp only [Std.LawfulEqOrd.compare_eq_iff_eq]

/-- A process leaves its group when it is waited for, not when it terminates. -/
theorem Coherent.terminate {table : Table} (h : Coherent table) (pid : Int) :
    Coherent (terminate table pid) := by
  have hplace : ∀ (other : Int) a, (ProcessTable.terminate table pid)[other]? = some a →
      ∃ a', table[other]? = some a' ∧ a'.group = a.group ∧ a'.session = a.session := by
    intro other a hget
    rw [getElem?_terminate] at hget
    by_cases hpid : pid = other
    · subst hpid
      rw [if_pos rfl] at hget
      obtain ⟨a', ha', rfl⟩ := Option.map_eq_some_iff.mp hget
      exact ⟨a', ha', rfl, rfl⟩
    · rw [if_neg hpid] at hget
      exact ⟨a, hget, rfl, rfl⟩
  intro p q a b ha hb hgroup
  obtain ⟨a', ha', hag, has⟩ := hplace p a ha
  obtain ⟨b', hb', hbg, hbs⟩ := hplace q b hb
  rw [← has, ← hbs]
  exact h p q a' b' ha' hb' (hag.trans (hgroup.trans hbg.symm))

/-- Nor does waiting for a process move one to another session. -/
theorem Coherent.erase {table : Table} (h : Coherent table) (pid : Int) :
    Coherent (table.erase pid) := by
  have hkept : ∀ (other : Int) a, (table.erase pid)[other]? = some a → table[other]? = some a := by
    intro other a hget
    rw [Std.ExtTreeMap.getElem?_erase] at hget
    split at hget
    · cases hget
    · exact hget
  intro p q a b ha hb
  exact h p q a b (hkept p a ha) (hkept q b hb)

end ProcessTable
