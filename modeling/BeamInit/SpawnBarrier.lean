import BeamInit.SpawnContext

/-! # The barrier of a spawn — when the monitor begins to serve

    The monitor waits on a pipe nobody writes to, whose write ends beam-init, the
    helper and the service process hold.  It gets past the wait when the last of
    them is closed: then `spawn_service` has returned in beam-init, and the
    service process has become its program, is dead, or has nothing left to do but
    to exit.  So the monitor takes its first command with the service's group in
    place. -/

namespace BeamSpawnContext

open BeamOs BeamService BeamSpawnPipes Runs

/-! ## Closed pipes stay closed -/

section Closed

variable {pty : Bool} {out : Outcomes} {w w' : Spawning} {pipe : Pipe}

/-- A pipe is closed once no process holds its end. -/
theorem isOpen_closed : w.isOpen pipe = false ↔
    w.parentHolds pipe = false ∧ (w.procs .helper).holds pipe = false
      ∧ (w.procs .child).holds pipe = false := by
  rw [Spawning.isOpen, Bool.or_eq_false_iff, Bool.or_eq_false_iff, and_assoc]

/-- When `spawn_service` returns, it has dropped all its ends but that of the monitor. -/
theorem returnWith_holds (result : SpawnResult) (hpipe : pipe ≠ .monitor) :
    (w.returnWith result).parentHolds pipe = false := by
  cases result with
  | ok pid monitor =>
      cases monitor with
      | false => rfl
      | true => cases pipe <;> first | rfl | exact absurd rfl hpipe
  | _ => rfl

/-- The ends of the processes are passed on by forks and closed, never opened. -/
theorem acted_holds {role : Role} (h : Acted pty out w role w')
    (hclosed : ∀ r, (w.procs r).holds pipe = false) (r : Role) :
    (w'.procs r).holds pipe = false := by
  have hset : ∀ {proc : ProcState}, proc.holds pipe = false →
      ((w.setProc role proc).procs r).holds pipe = false := by
    intro proc hproc
    by_cases hr : r = role
    · rw [hr, setProc_self]
      exact hproc
    · rw [setProc_other hr]
      exact hclosed r
  have hheld : ∀ {todo holds}, w.procs role = .running todo holds → holds pipe = false := by
    intro todo holds hproc
    have := hclosed role
    rw [hproc] at this
    exact this
  cases h with
  | moved hproc _ _ _ _ hholds =>
      refine hset (Bool.eq_false_iff.mpr fun hopen => ?_)
      exact Bool.eq_false_iff.mp (hheld hproc) ((hholds pipe).mp hopen).1
  | forked hproc _ =>
      by_cases hr : r = .child
      · rw [hr, setProc_self]
        exact hheld hproc
      · rw [setProc_other hr]
        exact hset (hheld hproc)
  | sent hproc _ => exact hset (hheld hproc)
  | ended _ hgone _ => exact hset (by rcases hgone with rfl | rfl <;> rfl)

/-- A pipe whose write ends are all closed stays closed. -/
theorem isOpen_step {runner : Runner} (hstep : SpawnStep pty out w runner w')
    (hpipe : pipe ≠ .monitor) (h : w.isOpen pipe = false) : w'.isOpen pipe = false := by
  obtain ⟨hparent, hhelper, hchild⟩ := isOpen_closed.mp h
  rcases step_cases hstep with hstep | ⟨role, hacted⟩
  · have hwithout : ∀ q, without w.parentHolds q pipe = false := by
      intro q
      rw [without, hparent]
      exact ite_self false
    cases hstep with
    | failed _ _ | readErr _ _ | readPid _ =>
        exact isOpen_closed.mpr ⟨returnWith_holds _ hpipe, hhelper, hchild⟩
    | forked _ _ => exact isOpen_closed.mpr ⟨hparent, hparent, hchild⟩
    | droppedErr _ | droppedSync _ => exact isOpen_closed.mpr ⟨hwithout _, hhelper, hchild⟩
    | endOfErr _ _ _ => exact isOpen_closed.mpr ⟨hparent, hhelper, hchild⟩
  · have hprocs : ∀ r, (w'.procs r).holds pipe = false :=
      acted_holds hacted fun r => by cases r <;> assumption
    have hends : w'.parentHolds = w.parentHolds := by
      cases hacted with
      | moved _ _ _ _ _ _ | forked _ _ | sent _ _ | ended _ _ _ => rfl
    exact isOpen_closed.mpr ⟨hends ▸ hparent, hprocs .helper, hprocs .child⟩

end Closed

/-! ## What has happened when the monitor serves -/

/-- A service process that has reported has nothing left to do but to exit. -/
theorem reported_acts (pty : Bool) : ∀ todo ∈ (childProgram pty).tails, todo ≠ [] →
    .send .err ∉ todo → todo = [.exit] := by
  cases pty <;> decide

/-- The report of a service process is still to come. -/
def Unreported : ProcState → Prop
  | .unborn => True
  | .running todo _ => .send .err ∈ todo
  | _ => False

/-- The parent has read the error pipe. -/
def Past : ParentAt → Prop
  | .readingPid => True
  | .returned _ => True
  | _ => False

/-- The parent has found nothing in the error pipe but its end. -/
def SeenEnd : ParentAt → Prop
  | .readingPid => True
  | .returned (.ok _ _) => True
  | _ => False

/-- **The invariant** of a spawn with its barrier. -/
structure Gate (pty : Bool) (w : Spawning) : Prop where
  sane : Sane pty w
  /-- beam-init holds its end until it returns. -/
  parent : w.parentHolds .pgidSync = true ∨ ∃ result, w.parent = .returned result
  past : Past w.parent → w.procs .helper = .unborn ∨ w.written .err ≠ [] ∨ w.isOpen .err = false
  seenEnd : SeenEnd w.parent → w.isOpen .err = false
  unreported : Unreported (w.procs .child) → w.written .err = []
  forked : ∀ {todo holds}, w.procs .helper = .running todo holds → .fork ∉ todo →
    w.procs .child ≠ .unborn
  waited : ∀ {todo holds}, w.procs .helper = .running todo holds → .wait ∉ todo →
    pty = true → w.isOpen .pgidSync = false

section Step

variable {pty : Bool} {out : Outcomes} {w w' : Spawning}

/-- The invariant holds before the first fork. -/
theorem gate_start : Gate pty start :=
  ⟨sane_start pty, .inl rfl, nofun, nofun, fun _ => rfl, nofun, nofun⟩

/-- A step of the parent keeps the processes and what they have written, but for
    the first fork. -/
theorem gate_parent (h : Gate pty w) (hstep : SpawnStep pty out w .parent w') : Gate pty w' := by
  have hsane := sane_step h.sane hstep
  have hclosed : ∀ {pipe}, pipe ≠ .monitor → w.isOpen pipe = false → w'.isOpen pipe = false :=
    fun hpipe => isOpen_step hstep hpipe
  -- past the first fork only the parent and its ends change
  have hkept : w'.procs = w.procs → w'.written = w.written →
      (w'.parentHolds .pgidSync = true ∨ ∃ result, w'.parent = .returned result) →
      (Past w'.parent → w.procs .helper = .unborn ∨ w.written .err ≠ [] ∨ w.isOpen .err = false) →
      (SeenEnd w'.parent → w.isOpen .err = false) → Gate pty w' := by
    intro hprocs hwritten hparent hpast hseen
    refine ⟨hsane, hparent, fun hp => ?_, fun hs => hclosed nofun (hseen hs), ?_, ?_, ?_⟩
    · rw [hprocs, hwritten]
      exact (hpast hp).imp_right (Or.imp_right (hclosed nofun))
    · rw [hprocs, hwritten]
      exact h.unreported
    · rw [hprocs]
      exact h.forked
    · intro todo holds hrun hwait hpty
      rw [hprocs] at hrun
      exact hclosed nofun (h.waited hrun hwait hpty)
  cases stepParent_cases hstep with
  | failed hparent _ =>
      exact hkept rfl rfl (.inr ⟨_, rfl⟩) (fun _ => .inl (h.sane.forking hparent).2.1) nofun
  | forked hparent _ =>
      obtain ⟨hholds, -, hchild⟩ := h.sane.forking hparent
      refine ⟨hsane, .inl (congrFun hholds _), nofun, nofun, fun hun => ?_, ?_, ?_⟩
      · exact h.unreported (hchild ▸ trivial)
      · intro todo holds hrun hfork
        rw [setProc_self] at hrun
        cases hrun
        exact absurd (by cases pty <;> decide) hfork
      · intro todo holds hrun hwait hpty
        rw [setProc_self] at hrun
        cases hrun
        subst hpty
        exact absurd (by decide) hwait
  | droppedErr hparent | droppedSync hparent =>
      have hheld : w.parentHolds .pgidSync = true :=
        h.parent.resolve_right fun ⟨_, hr⟩ => nomatch hparent.symm.trans hr
      exact hkept rfl rfl (.inl hheld) nofun nofun
  | readErr hparent hwritten => exact hkept rfl rfl (.inr ⟨_, rfl⟩) (fun _ => .inr (.inl hwritten)) nofun
  | endOfErr hparent _ hend =>
      have hheld : w.parentHolds .pgidSync = true :=
        h.parent.resolve_right fun ⟨_, hr⟩ => nomatch hparent.symm.trans hr
      exact hkept rfl rfl (.inl hheld) (fun _ => .inr (.inr hend)) fun _ => hend
  | readPid hparent =>
      have hend := h.seenEnd (hparent ▸ trivial)
      exact hkept rfl rfl (.inr ⟨_, rfl⟩) (fun _ => .inr (.inr hend)) fun _ => hend

/-- The wait ends with the last write end of the barrier. -/
theorem wait_closed {rest : List Act} {holds : Pipe → Bool} {role : Role}
    (hproc : w.procs role = .running (.wait :: rest) holds)
    (hstep : SpawnStep pty out w (.proc role) w') : w.isOpen .pgidSync = false := by
  have h : stepProc pty out w role = some w' := hstep
  rw [stepProc] at h
  rw [hproc] at h
  dsimp only [act] at h
  by_cases hopen : w.isOpen .pgidSync = true
  · rw [if_pos hopen] at h
    cases h
  · exact Bool.eq_false_iff.mpr hopen

/-- A process leaves the parent alone, and what was written stays written. -/
theorem gate_past {role : Role} (h : Gate pty w) (hstep : SpawnStep pty out w (.proc role) w')
    (hacted : Acted pty out w role w') (hp : Past w'.parent) :
    w'.procs .helper = .unborn ∨ w'.written .err ≠ [] ∨ w'.isOpen .err = false := by
  rw [acted_parent hacted] at hp
  rcases h.past hp with hunborn | hwritten | hend
  · refine .inl ?_
    cases role with
    | helper =>
        cases hacted with
        | moved hproc _ _ _ _ _ | forked hproc _ | sent hproc _ | ended hproc _ _ =>
            exact nomatch hunborn.symm.trans hproc
    | child =>
        have hne : Role.helper ≠ .child := nofun
        cases hacted with
        | moved _ _ _ _ _ _ | ended _ _ _ => rw [setProc_other hne]; exact hunborn
        | sent _ _ => rw [write_procs, setProc_other hne]; exact hunborn
        | forked hproc _ =>
            exact absurd rfl (child_acts pty _ (mem_of_tails (h.sane.child hproc).ahead)).1
  · exact .inr (.inl (acted_written hacted hwritten))
  · exact .inr (.inr (isOpen_step hstep nofun hend))

/-- A step of a forked process leaves the ends of beam-init as they are. -/
theorem acted_parentHolds {role : Role} (hacted : Acted pty out w role w') :
    w'.parentHolds = w.parentHolds := by
  cases hacted with
  | moved _ _ _ _ _ _ | forked _ _ | sent _ _ | ended _ _ _ => rfl

/-- Writing to a pipe leaves the others as they are. -/
theorem written_other {pipe q : Pipe} {value : Int} (hq : q ≠ pipe) :
    (w.write pipe value).written q = w.written q := if_neg hq

/-- The helper keeps it. -/
theorem gate_helper (h : Gate pty w) (hstep : SpawnStep pty out w (.proc .helper) w') :
    Gate pty w' := by
  have hacted : Acted pty out w .helper w' := stepProc_acted hstep
  have hne : Role.child ≠ .helper := nofun
  refine ⟨sane_step h.sane hstep, ?_, gate_past h hstep hacted, fun hseen => ?_, ?_, ?_, ?_⟩
  · rw [acted_parentHolds hacted, acted_parent hacted]
    exact h.parent
  · rw [acted_parent hacted] at hseen
    exact isOpen_step hstep nofun (h.seenEnd hseen)
  -- the helper writes no error, and the process it forks has not
  · cases hacted with
    | moved _ _ _ _ _ _ | ended _ _ _ => exact h.unreported
    | sent hproc _ =>
        have hsend := (helper_acts pty _ (mem_of_tails (h.sane.helper hproc).ahead)).2.1
        rw [write_procs, setProc_other hne, written_other fun heq => hsend (congrArg Act.send heq.symm)]
        exact h.unreported
    | forked hproc _ =>
        have hunborn := ((h.sane.helper hproc).unforked List.mem_cons_self).1
        exact fun _ => h.unreported (hunborn ▸ trivial)
  · intro todo holds hrun hfork
    cases hacted with
    | moved hproc _ hact _ _ _ =>
        rw [setProc_self] at hrun
        cases hrun
        exact h.forked hproc fun hmem => (List.mem_cons.mp hmem).elim (fun heq => hact heq.symm) hfork
    | sent hproc _ =>
        rw [write_procs, setProc_self] at hrun
        cases hrun
        exact h.forked hproc fun hmem => (List.mem_cons.mp hmem).elim nofun hfork
    | forked _ _ =>
        rw [setProc_self]
        exact nofun
    | ended _ hgone _ =>
        rw [setProc_self] at hrun
        rcases hgone with rfl | rfl <;> exact nomatch hrun
  · intro todo holds hrun hwait hpty
    -- either it was past its wait, or this is the step that ends it
    have hbefore : ∀ {a : Act} {rest : List Act} {holds' : Pipe → Bool},
        w.procs .helper = .running (a :: rest) holds' → .wait ∉ rest →
        w'.isOpen .pgidSync = false := by
      intro a rest holds' hproc hrest
      refine isOpen_step hstep nofun ?_
      by_cases ha : a = .wait
      · subst ha
        exact wait_closed hproc hstep
      · refine h.waited hproc (fun hmem => ?_) hpty
        exact (List.mem_cons.mp hmem).elim (fun heq => ha heq.symm) hrest
    cases hacted with
    | moved hproc _ _ _ _ _ =>
        rw [setProc_self] at hrun
        cases hrun
        exact hbefore hproc hwait
    | sent hproc _ =>
        rw [write_procs, setProc_self] at hrun
        cases hrun
        exact hbefore hproc hwait
    | forked hproc _ =>
        rw [setProc_other hne.symm, setProc_self] at hrun
        cases hrun
        exact hbefore hproc hwait
    | ended _ hgone _ =>
        rw [setProc_self] at hrun
        rcases hgone with rfl | rfl <;> exact nomatch hrun

/-- A service process reports once. -/
theorem child_reports_once (pty : Bool) (pipe : Pipe) : ∀ todo ∈ (childProgram pty).tails,
    .send pipe ∈ todo.head? → .send .err ∉ todo.tail := by
  cases pipe <;> cases pty <;> decide

/-- The service keeps it. -/
theorem gate_child (h : Gate pty w) (hstep : SpawnStep pty out w (.proc .child) w') :
    Gate pty w' := by
  have hacted : Acted pty out w .child w' := stepProc_acted hstep
  have hne : Role.helper ≠ .child := nofun
  have hhelper : w'.procs .helper = w.procs .helper := by
    cases hacted with
    | moved _ _ _ _ _ _ | ended _ _ _ => exact setProc_other hne
    | sent _ _ => rw [write_procs, setProc_other hne]
    | forked hproc _ =>
        exact absurd rfl (child_acts pty _ (mem_of_tails (h.sane.child hproc).ahead)).1
  refine ⟨sane_step h.sane hstep, ?_, gate_past h hstep hacted, fun hseen => ?_, ?_, ?_, ?_⟩
  · rw [acted_parentHolds hacted, acted_parent hacted]
    exact h.parent
  · rw [acted_parent hacted] at hseen
    exact isOpen_step hstep nofun (h.seenEnd hseen)
  · cases hacted with
    | moved hproc _ _ _ _ _ =>
        rw [setProc_self]
        exact fun hun => h.unreported (hproc ▸ List.mem_cons_of_mem _ hun)
    | sent hproc _ =>
        rw [write_procs, setProc_self]
        exact fun hun => absurd hun (child_reports_once pty _ _ (h.sane.child hproc).ahead rfl)
    | forked hproc _ =>
        exact absurd rfl (child_acts pty _ (mem_of_tails (h.sane.child hproc).ahead)).1
    | ended _ hgone _ =>
        rw [setProc_self]
        rcases hgone with rfl | rfl <;> exact nofun
  · intro todo holds hrun hfork
    cases hacted with
    | moved _ _ _ _ _ _ =>
        rw [setProc_self]
        exact nofun
    | sent _ _ =>
        rw [write_procs, setProc_self]
        exact nofun
    | forked _ _ =>
        rw [setProc_self]
        exact nofun
    | ended _ hgone _ =>
        rw [setProc_self]
        rcases hgone with rfl | rfl <;> exact nofun
  · intro todo holds hrun hwait hpty
    rw [hhelper] at hrun
    exact isOpen_step hstep nofun (h.waited hrun hwait hpty)

/-- **Every step** keeps the invariant. -/
theorem gate_step {runner : Runner} (h : Gate pty w) (hstep : SpawnStep pty out w runner w') :
    Gate pty w' := by
  cases runner with
  | parent => exact gate_parent h hstep
  | proc role =>
      cases role with
      | helper => exact gate_helper h hstep
      | child => exact gate_child h hstep

/-- The run lemma. -/
theorem gate_run {runners : List Runner} (hrun : Run (SpawnStep pty out) start runners w) :
    Gate pty w :=
  hrun.invariant (I := Gate pty) gate_step gate_start

end Step

/-! ## The monitor -/

/-- The monitor when it begins to serve: a session leader on the PTY that keeps the
    signals of its children for its signalfd and ignores the terminal's. -/
def monitorContext (boot : Context) (out : Outcomes) (credentials : Credentials) (ttyGid : Nat) :
    Context where
  pid := out.helperPid
  pgid := out.helperPid
  sid := out.helperPid
  tty := some ⟨credentials.uid, ttyGid⟩
  sigmask := boot.sigmask ∪ {SIGCHLD} ∪ {SIGTTOU}
  oldSigset := boot.sigmask
  uid := boot.uid
  gid := boot.gid
  groups := boot.groups
  stdin := .ptyClient
  stdout := .ptyClient
  stderr := .ptyClient
  nofile := ⟨boot.nofile.max, boot.nofile.max⟩
  cloexec := boot.cloexec

/-- Before the loop of the monitor comes the wait for the barrier. -/
theorem before_serve {before : List Act} (h : before ++ [.serve] = helperProgram true) :
    before = setup true ++ (.fork :: handOver true ++ [.send .pid, .wait, .call .newTtouSet,
      .call .blockSigttou]) :=
  before_eq h rfl (by decide) (by decide)

/-- Acts one after the other change the context one after the other. -/
theorem through_append (request : Request) (pty : Bool) (before after : List Act) (c : Context) :
    through request pty (before ++ after) c
      = through request pty after (through request pty before c) :=
  List.foldl_append

/-- A spawn with its contexts is a spawn. -/
theorem located_spawning {pty : Bool} {out : Outcomes} {request : Request} {beamInit : Context}
    {w w' : Located} {runners : List Runner}
    (hrun : Run (LocatedStep pty out request beamInit) w runners w') :
    Run (SpawnStep pty out) w.spawning runners w'.spawning := by
  induction hrun with
  | nil w => exact .nil _
  | cons hstep _ ih => exact .cons hstep.1 ih

/-- **HEADLINE.** When the monitor begins to serve, `spawn_service` has returned in
    beam-init, the monitor leads the session of the PTY, and the service process
    has become its program, in its own group of that session, or is over; if a pid
    was returned, it has not failed to exec. -/
theorem monitor_serves_late {boot : Context} {out : Outcomes} {credentials : Credentials}
    {ttyGid : Nat} {w : Located} {runners : List Runner} {holds : Pipe → Bool}
    (hrun : Run (LocatedStep true out (requestFor boot credentials ttyGid) (startUp boot))
      (locatedStart (startUp boot)) runners w)
    (hserve : w.spawning.procs .helper = .running [.serve] holds) :
    (∃ result, w.spawning.parent = .returned result)
      ∧ w.contexts .helper = monitorContext boot out credentials ttyGid
      ∧ ((w.spawning.procs .child = .execed ∧ (w.contexts .child).pgid = out.servicePid
            ∧ (w.contexts .child).sid = out.helperPid)
        ∨ w.spawning.procs .child = .exited
        ∨ (w.spawning.written .err ≠ [] ∧ ∃ ends, w.spawning.procs .child = .running [.exit] ends
            ∧ ∀ pid monitor, w.spawning.parent ≠ .returned (.ok pid monitor))) := by
  have hgate := gate_run (located_spawning hrun)
  have hplaced := placed_run hrun
  have hahead := (hgate.sane.helper hserve).ahead
  have hclosed := hgate.waited hserve (by decide) rfl
  have hreturned : ∃ result, w.spawning.parent = .returned result := by
    refine hgate.parent.resolve_left fun hheld => ?_
    exact nomatch hheld.symm.trans (isOpen_closed.mp hclosed).1
  refine ⟨hreturned, ?_, ?_⟩
  · obtain ⟨before, hprogram, hcontext⟩ := hplaced.helper hserve
    rw [hcontext, before_serve hprogram, through_append, through_setup]
    rfl
  · have hpast : Past w.spawning.parent := by
      obtain ⟨result, hresult⟩ := hreturned
      exact hresult ▸ trivial
    cases hchild : w.spawning.procs .child with
    | unborn => exact absurd hchild (hgate.forked hserve (by decide))
    | execed =>
        have hcontext := (hplaced.execed hchild).trans (through_childSetup _ _ _ _ _)
        exact .inl ⟨rfl, congrArg Context.pgid hcontext, congrArg Context.sid hcontext⟩
    | exited => exact .inr (.inl rfl)
    | running todo ends =>
        have hat := hgate.sane.child hchild
        -- it holds the error pipe open, so the parent has read an error
        have hopen : w.spawning.isOpen .err ≠ false := by
          intro hend
          have hheld := (isOpen_closed.mp hend).2.2
          rw [hchild] at hheld
          exact nomatch hheld.symm.trans hat.holdsErr
        have hwritten : w.spawning.written .err ≠ [] := by
          rcases hgate.past hpast with hunborn | hwritten | hend
          · exact nomatch hunborn.symm.trans hserve
          · exact hwritten
          · exact absurd hend hopen
        have hsent : .send .err ∉ todo := fun hmem =>
          hwritten (hgate.unreported (hchild ▸ hmem))
        refine .inr (.inr ⟨hwritten, ends, ?_, fun pid monitor hok => ?_⟩)
        · rw [reported_acts true _ hat.ahead hat.ne_nil hsent]
        · exact hopen (hgate.seenEnd (hok ▸ trivial))

theorem monitor_serves_late_container :
    ∃ w : Located, (∃ holds, w.spawning.procs .helper = .running [.serve] holds)
      ∧ (∃ result, w.spawning.parent = .returned result)
      ∧ w.contexts .helper
        = monitorContext containerBoot ⟨fun _ => false, 2, 3, 0⟩ ⟨1000, 1000⟩ 5 := by
  have hafter : ∃ w holds, spawnAfter true ⟨fun _ => false, 2, 3, 0⟩ start
      (List.replicate 3 .parent ++ List.replicate 14 (.proc .helper)
        ++ List.replicate 8 (.proc .child) ++ List.replicate 2 .parent
        ++ List.replicate 3 (.proc .helper)) = some w
      ∧ w.procs .helper = .running [.serve] holds := ⟨_, _, rfl, rfl⟩
  obtain ⟨spawning, holds, hafter, hserve⟩ := hafter
  obtain ⟨w, hrun, rfl⟩ := exists_located (requestFor containerBoot ⟨1000, 1000⟩ 5)
    (startUp containerBoot) (w := locatedStart (startUp containerBoot)) hafter
  obtain ⟨hreturned, hcontext, -⟩ := monitor_serves_late hrun hserve
  exact ⟨w, ⟨holds, hserve⟩, hreturned, hcontext⟩

end BeamSpawnContext
