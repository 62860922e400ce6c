import BeamInit.SpawnModel

/-! # The steps of a spawn — what holds whoever runs next

    One inversion lemma for the step of a process and one for a step of the
    parent.  The invariant says, for each process that runs, how far its program
    has got, and from that what it holds and what it has written. -/

namespace BeamSpawnPipes

open Runs

/-! ## The programs -/

theorem tail_mem_tails {α : Type} {a : α} {rest l : List α} (h : a :: rest ∈ l.tails) :
    rest ∈ l.tails := by
  rw [List.mem_tails] at h ⊢
  exact (List.suffix_cons a rest).trans h

/-- The acts a helper and a service process share nothing of. -/
theorem helper_acts (pty : Bool) : ∀ a ∈ helperProgram pty,
    a ≠ .exec ∧ a ≠ .send .err ∧ a ≠ .drop .pid := by
  cases pty <;> decide

theorem child_acts (pty : Bool) : ∀ a ∈ childProgram pty,
    a ≠ .fork ∧ a ≠ .send .pid ∧ a ≠ .wait ∧ a ≠ .serve ∧ a ≠ .drop .err := by
  cases pty <;> decide

/-- A helper that still holds the error pipe closes it. -/
theorem helper_touches_err (pty : Bool) : ∀ todo ∈ (helperProgram pty).tails,
    .drop .err ∈ todo → touches .err todo = true := by
  cases pty <;> decide

/-- A helper that has not written the pid does so, if its acts up to there succeed. -/
theorem helper_before_pid (pty : Bool) : ∀ todo ∈ (helperProgram pty).tails,
    .send .pid ∈ todo → touches .pid todo = true
      ∧ ∀ a ∈ todo.head?, a ∈ setup pty ++ .fork :: (handOver pty ++ [.send .pid]) := by
  cases pty <;> decide

/-- A helper that has not forked still holds the error pipe. -/
theorem helper_before_fork (pty : Bool) : ∀ todo ∈ (helperProgram pty).tails,
    .fork ∈ todo → .drop .err ∈ todo
      ∧ ∀ a ∈ todo.head?, a ∈ setup pty ++ [.fork] ∧ a ≠ .drop .err := by
  cases pty <;> decide

/-- A helper forks once. -/
theorem helper_forks_once (pty : Bool) : ∀ todo ∈ (helperProgram pty).tails,
    .fork ∈ todo.head? → .fork ∉ todo.tail := by
  cases pty <;> decide

/-- A service process that runs has the error pipe to close. -/
theorem child_touches_err (pty : Bool) : ∀ todo ∈ (childProgram pty).tails,
    todo ≠ [] → touches .err todo = true := by
  cases pty <;> decide

/-- A program ends with its exit. -/
theorem child_exits (pty : Bool) : ∀ todo ∈ (childProgram pty).tails,
    todo ≠ [] → .exit ∉ todo.head? → todo.tail ≠ [] := by
  cases pty <;> decide

/-- A service process that has not reported does so, if its acts up to there succeed. -/
theorem child_before_report (pty : Bool) : ∀ todo ∈ (childProgram pty).tails,
    .send .err ∈ todo → ∀ a ∈ todo.head?,
      a = .exec ∨ (a ∈ childSetup pty ++ childReport ∧ a ≠ .exit) := by
  cases pty <;> decide

/-! ## What an act does -/

@[simp] theorem setProc_self (w : Spawning) (role : Role) (proc : ProcState) :
    (w.setProc role proc).procs role = proc := if_pos rfl

@[simp] theorem setProc_other {w : Spawning} {role role' : Role} {proc : ProcState}
    (h : role' ≠ role) : (w.setProc role proc).procs role' = w.procs role' := if_neg h

@[simp] theorem setProc_parent (w : Spawning) (role : Role) (proc : ProcState) :
    (w.setProc role proc).parent = w.parent := rfl

@[simp] theorem write_procs (w : Spawning) (pipe : Pipe) (value : Int) :
    (w.write pipe value).procs = w.procs := rfl

@[simp] theorem write_parent (w : Spawning) (pipe : Pipe) (value : Int) :
    (w.write pipe value).parent = w.parent := rfl

theorem written_write (w : Spawning) (pipe : Pipe) (value : Int) (q : Pipe)
    (h : q = pipe ∨ w.written q ≠ []) : (w.write pipe value).written q ≠ [] := by
  show (if q = pipe then w.written q ++ [value] else w.written q) ≠ []
  by_cases hq : q = pipe
  · rw [if_pos hq]
    exact fun hnil => nomatch (List.append_eq_nil_iff.mp hnil).2
  · rw [if_neg hq]
    exact h.resolve_left hq

section Acted

variable {pty : Bool} {out : Outcomes}

/-- What one act of a process does: it goes on, forks, writes, or ends the process. -/
inductive Acted (pty : Bool) (out : Outcomes) (w : Spawning) (role : Role) : Spawning → Prop where
  | moved {a : Act} {rest : List Act} {holds holds' : Pipe → Bool} :
      w.procs role = .running (a :: rest) holds → Act.succeeds out a = true →
      a ≠ .fork → (∀ p, a ≠ .send p) → a ≠ .exit →
      (∀ p, holds' p = true ↔ holds p = true ∧ a ≠ .drop p) →
      Acted pty out w role (w.setProc role (.running rest holds'))
  | forked {rest : List Act} {holds : Pipe → Bool} :
      w.procs role = .running (.fork :: rest) holds → Act.succeeds out .fork = true →
      Acted pty out w role ((w.setProc role (.running rest holds)).setProc .child
        (.running (childProgram pty) holds))
  | sent {p : Pipe} {rest : List Act} {holds : Pipe → Bool} {value : Int} :
      w.procs role = .running (.send p :: rest) holds → Act.succeeds out (.send p) = true →
      Acted pty out w role ((w.setProc role (.running rest holds)).write p value)
  | ended {a : Act} {rest : List Act} {holds : Pipe → Bool} {proc : ProcState} :
      w.procs role = .running (a :: rest) holds → proc = .exited ∨ proc = .execed →
      (Act.succeeds out a = false ∨ a = .exit ∨ a = .wait
        ∨ (a = .exec ∧ out.fails .execvp = false)) →
      Acted pty out w role (w.setProc role proc)

theorem stepProc_acted {w w' : Spawning} {role : Role} (h : stepProc pty out w role = some w') :
    Acted pty out w role w' := by
  rw [stepProc] at h
  split at h
  case h_2 => exact nomatch h
  case h_1 a rest holds hproc =>
    have hkeeps : ∀ {a : Act}, (∀ p, a ≠ .drop p) → ∀ p, holds p = true ↔ holds p = true ∧ a ≠ .drop p :=
      fun hdrop p => ⟨fun hp => ⟨hp, hdrop p⟩, fun hp => hp.1⟩
    cases a with
    | drop pipe =>
        cases h
        refine .moved hproc rfl nofun (fun _ => nofun) nofun (fun p => ?_)
        show (if p = pipe then false else holds p) = true ↔ _
        by_cases hp : p = pipe
        · rw [if_pos hp, hp]
          exact ⟨nofun, fun hself => absurd rfl hself.2⟩
        · rw [if_neg hp]
          exact ⟨fun hold => ⟨hold, fun heq => hp (Act.drop.inj heq).symm⟩, fun hold => hold.1⟩
    | call c =>
        cases h
        by_cases hfail : out.fails c = true
        · rw [if_pos hfail]
          exact .ended hproc (.inl rfl) (.inl (by rw [Act.succeeds, hfail]; rfl))
        · rw [if_neg hfail]
          refine .moved hproc ?_ nofun (fun _ => nofun) nofun (hkeeps nofun)
          rw [Act.succeeds, Bool.eq_false_iff.mpr hfail]
          rfl
    | fork =>
        dsimp only [act] at h
        by_cases hfail : out.fails .serviceFork = true
        · rw [if_pos hfail] at h
          cases h
          exact .ended hproc (.inl rfl) (.inl (by rw [Act.succeeds, hfail]; rfl))
        · rw [if_neg hfail] at h
          cases h
          refine .forked hproc ?_
          rw [Act.succeeds, Bool.eq_false_iff.mpr hfail]
          rfl
    | send pipe =>
        dsimp only [act] at h
        by_cases hfail : out.fails (sendCall pipe) = true
        · rw [if_pos hfail] at h
          cases h
          exact .ended hproc (.inl rfl) (.inl (by rw [Act.succeeds, hfail]; rfl))
        · rw [if_neg hfail] at h
          cases h
          refine .sent hproc ?_
          rw [Act.succeeds, Bool.eq_false_iff.mpr hfail]
          rfl
    | wait =>
        dsimp only [act] at h
        split at h
        · exact nomatch h
        · cases h
          by_cases hfail : out.fails .waitPgid = true
          · rw [if_pos hfail]
            exact .ended hproc (.inl rfl) (.inr (.inr (.inl rfl)))
          · rw [if_neg hfail]
            exact .moved hproc rfl nofun (fun _ => nofun) nofun (hkeeps nofun)
    | exec =>
        cases h
        by_cases hfail : out.fails .execvp = true
        · rw [if_pos hfail]
          exact .moved hproc rfl nofun (fun _ => nofun) nofun (hkeeps nofun)
        · rw [if_neg hfail]
          exact .ended hproc (.inr rfl) (.inr (.inr (.inr ⟨rfl, Bool.eq_false_iff.mpr hfail⟩)))
    | exit =>
        cases h
        exact .ended hproc (.inl rfl) (.inr (.inl rfl))
    | serve => exact nomatch h

theorem acted_parent {w w' : Spawning} {role : Role} (hacted : Acted pty out w role w') :
    w'.parent = w.parent := by
  cases hacted with
  | moved _ _ _ _ _ _ | forked _ _ | sent _ _ | ended _ _ _ => rfl

/-- The service process leaves the helper alone. -/
theorem acted_helper {w w' : Spawning} (hacted : Acted pty out w .child w') :
    w'.procs .helper = w.procs .helper := by
  cases hacted with
  | moved _ _ _ _ _ _ | forked _ _ | sent _ _ | ended _ _ _ => rfl

/-- A step keeps what was written. -/
theorem acted_written {w w' : Spawning} {role : Role} {pipe : Pipe} (hacted : Acted pty out w role w')
    (h : w.written pipe ≠ []) : w'.written pipe ≠ [] := by
  cases hacted with
  | moved _ _ _ _ _ _ | forked _ _ | ended _ _ _ => exact h
  | sent _ _ => exact written_write _ _ _ pipe (.inr h)

end Acted

/-! ## What holds in every state -/

section Invariant

variable (pty : Bool)

/-- A running helper: what it still has to do says what it holds and what it has written. -/
structure HelperAt (w : Spawning) (todo : List Act) (holds : Pipe → Bool) : Prop where
  ahead : todo ∈ (helperProgram pty).tails
  dropsErr : holds .err = true → Act.drop .err ∈ todo
  holdsPid : holds .pid = true
  sent : Act.send .pid ∉ todo → w.written .pid ≠ []
  unforked : Act.fork ∈ todo → w.procs .child = .unborn ∧ holds .err = true

/-- A running service process. -/
structure ChildAt (todo : List Act) (holds : Pipe → Bool) : Prop where
  ahead : todo ∈ (childProgram pty).tails
  holdsErr : holds .err = true
  ne_nil : todo ≠ []

/-- The invariant of every run. -/
structure Sane (w : Spawning) : Prop where
  forking : w.parent = .forking → w.parentHolds = (fun _ => true)
    ∧ w.procs .helper = .unborn ∧ w.procs .child = .unborn
  born : w.procs .helper = .unborn → w.parent = .forking ∨ ∃ result, w.parent = .returned result
  closed : w.parent = .forking ∨ w.parent = .droppingErr ∨ w.parentHolds .err = false
  helper : ∀ {todo holds}, w.procs .helper = .running todo holds → HelperAt pty w todo holds
  child : ∀ {todo holds}, w.procs .child = .running todo holds → ChildAt pty todo holds

theorem sane_start : Sane pty start :=
  ⟨fun _ => ⟨rfl, rfl, rfl⟩, fun _ => .inl rfl, .inl rfl, nofun, nofun⟩

variable {pty}

theorem HelperAt.of_eq {w w' : Spawning} {todo : List Act} {holds : Pipe → Bool}
    (h : HelperAt pty w todo holds) (hwritten : w.written .pid ≠ [] → w'.written .pid ≠ [])
    (hchild : w.procs .child = .unborn → w'.procs .child = .unborn) : HelperAt pty w' todo holds :=
  ⟨h.ahead, h.dropsErr, h.holdsPid, fun hsent => hwritten (h.sent hsent),
    fun hfork => ⟨hchild (h.unforked hfork).1, (h.unforked hfork).2⟩⟩

/-- The parent's own steps leave the helper and the service process alone, once forked. -/
theorem Sane.of_procs {w w' : Spawning} (h : Sane pty w) (hprocs : w'.procs = w.procs)
    (hwritten : w'.written = w.written) (hforking : w'.parent ≠ .forking)
    (hborn : w.parent ≠ .forking ∨ ∃ result, w'.parent = .returned result)
    (hreturned : (∃ result, w.parent = .returned result) → ∃ result, w'.parent = .returned result)
    (hclosed : w'.parent = .droppingErr ∨ w'.parentHolds .err = false) : Sane pty w' where
  forking := fun hf => absurd hf hforking
  born := by
    intro hunborn
    rw [hprocs] at hunborn
    rcases hborn with hne | hresult
    · exact .inr (hreturned ((h.born hunborn).resolve_left hne))
    · exact .inr hresult
  closed := .inr hclosed
  helper := by
    intro todo holds hrun
    rw [hprocs] at hrun
    exact (h.helper hrun).of_eq (fun hne => by rw [hwritten]; exact hne)
      (fun hunborn => by rw [hprocs]; exact hunborn)
  child := by
    intro todo holds hrun
    rw [hprocs] at hrun
    exact h.child hrun

variable {out : Outcomes}

theorem mem_of_tails {α : Type} {a : α} {rest l : List α} (h : a :: rest ∈ l.tails) : a ∈ l :=
  ((List.mem_tails _ _).mp h).subset List.mem_cons_self

/-- A step of the helper. -/
theorem sane_helper {w w' : Spawning} (h : Sane pty w) (hacted : Acted pty out w .helper w') :
    Sane pty w' := by
  have hother : Role.child ≠ .helper := nofun
  have hforking : ∀ {todo holds}, w.procs .helper = .running todo holds → w.parent ≠ .forking := by
    intro todo holds hproc hf
    exact nomatch (h.forking hf).2.1.symm.trans hproc
  cases hacted with
  | @moved a rest holds holds' hproc hok hfork hsend hexit hholds =>
      have hat := h.helper hproc
      refine ⟨fun hf => absurd hf (hforking hproc), fun hu => ?_, h.closed, fun hrun => ?_,
        fun hrun => h.child hrun⟩
      · rw [setProc_self] at hu
        exact nomatch hu
      · rw [setProc_self] at hrun
        cases hrun
        refine ⟨tail_mem_tails hat.ahead, fun herr => ?_, ?_, fun hsent => hat.sent ?_, fun hf => ?_⟩
        · obtain ⟨herr, hne⟩ := (hholds .err).mp herr
          exact (List.mem_cons.mp (hat.dropsErr herr)).resolve_left (fun heq => hne heq.symm)
        · exact (hholds .pid).mpr ⟨hat.holdsPid, (helper_acts pty a (mem_of_tails hat.ahead)).2.2⟩
        · rw [List.mem_cons]
          rintro (heq | hmem)
          · exact hsend .pid heq.symm
          · exact hsent hmem
        · have hmem : Act.fork ∈ a :: rest := List.mem_cons_of_mem _ hf
          obtain ⟨hunborn, herr⟩ := hat.unforked hmem
          refine ⟨hunborn, (hholds .err).mpr ⟨herr, ?_⟩⟩
          exact ((helper_before_fork pty _ hat.ahead hmem).2 a rfl).2
  | @forked rest holds hproc hok =>
      have hat := h.helper hproc
      have hmem : Act.fork ∈ Act.fork :: rest := List.mem_cons_self
      refine ⟨fun hf => absurd hf (hforking hproc), fun hu => ?_, h.closed, fun hrun => ?_,
        fun hrun => ?_⟩
      · rw [setProc_other hother.symm, setProc_self] at hu
        exact nomatch hu
      · rw [setProc_other hother.symm, setProc_self] at hrun
        cases hrun
        refine ⟨tail_mem_tails hat.ahead, fun herr => ?_, hat.holdsPid, fun hsent => hat.sent ?_,
          fun hf => absurd hf (helper_forks_once pty _ hat.ahead rfl)⟩
        · exact (List.mem_cons.mp (hat.dropsErr herr)).resolve_left nofun
        · rw [List.mem_cons]
          rintro (heq | hmem)
          · exact nomatch heq
          · exact hsent hmem
      · rw [setProc_self] at hrun
        cases hrun
        refine ⟨(List.mem_tails _ _).mpr (List.suffix_refl _), (hat.unforked hmem).2, ?_⟩
        rw [childProgram]
        exact fun hnil => nomatch (List.append_eq_nil_iff.mp hnil).2
  | @sent p rest holds value hproc hok =>
      have hat := h.helper hproc
      refine ⟨fun hf => absurd hf (hforking hproc), fun hu => ?_, h.closed, fun hrun => ?_,
        fun hrun => h.child hrun⟩
      · rw [write_procs, setProc_self] at hu
        exact nomatch hu
      · rw [write_procs, setProc_self] at hrun
        cases hrun
        refine ⟨tail_mem_tails hat.ahead, fun herr => ?_, hat.holdsPid, fun hsent => ?_,
          fun hf => hat.unforked (List.mem_cons_of_mem _ hf)⟩
        · exact (List.mem_cons.mp (hat.dropsErr herr)).resolve_left nofun
        · refine written_write _ p value .pid ?_
          by_cases hp : Pipe.pid = p
          · exact .inl hp
          · refine .inr (hat.sent ?_)
            rw [List.mem_cons]
            rintro (heq | hmem)
            · exact hp (Act.send.inj heq)
            · exact hsent hmem
  | ended hproc hgone hwhy =>
      refine ⟨fun hf => absurd hf (hforking hproc), fun hu => ?_, h.closed, fun hrun => ?_,
        fun hrun => h.child hrun⟩
      · rw [setProc_self] at hu
        rcases hgone with rfl | rfl <;> exact nomatch hu
      · rw [setProc_self] at hrun
        rcases hgone with rfl | rfl <;> exact nomatch hrun

/-- A step of the service process. -/
theorem sane_child {w w' : Spawning} (h : Sane pty w) (hacted : Acted pty out w .child w') :
    Sane pty w' := by
  have hother : Role.helper ≠ .child := nofun
  have hforking : ∀ {todo holds}, w.procs .child = .running todo holds → w.parent ≠ .forking := by
    intro todo holds hproc hf
    exact nomatch (h.forking hf).2.2.symm.trans hproc
  have hhelper : ∀ {todo holds todo' holds' w'}, w.procs .child = .running todo' holds' →
      (w.written .pid ≠ [] → w'.written .pid ≠ []) → w.procs .helper = .running todo holds →
      HelperAt pty w' todo holds :=
    fun hproc hwritten hrun => (h.helper hrun).of_eq hwritten
      (fun hunborn => nomatch hunborn.symm.trans hproc)
  cases hacted with
  | @moved a rest holds holds' hproc hok hfork hsend hexit hholds =>
      have hat := h.child hproc
      refine ⟨fun hf => absurd hf (hforking hproc), fun hu => h.born hu, h.closed,
        fun hrun => hhelper hproc id hrun, fun hrun => ?_⟩
      rw [setProc_self] at hrun
      cases hrun
      refine ⟨tail_mem_tails hat.ahead, ?_, ?_⟩
      · exact (hholds .err).mpr
          ⟨hat.holdsErr, (child_acts pty a (mem_of_tails hat.ahead)).2.2.2.2⟩
      · exact child_exits pty _ hat.ahead hat.ne_nil (fun heq => hexit (Option.some.inj heq))
  | forked hproc hok => exact absurd rfl (child_acts pty _ (mem_of_tails (h.child hproc).ahead)).1
  | @sent p rest holds value hproc hok =>
      have hat := h.child hproc
      refine ⟨fun hf => absurd hf (hforking hproc), fun hu => h.born hu, h.closed,
        fun hrun => hhelper hproc (fun hne => written_write _ p value .pid (.inr hne)) hrun,
        fun hrun => ?_⟩
      rw [write_procs, setProc_self] at hrun
      cases hrun
      exact ⟨tail_mem_tails hat.ahead, hat.holdsErr,
        child_exits pty _ hat.ahead hat.ne_nil (fun heq => nomatch heq)⟩
  | ended hproc hgone hwhy =>
      refine ⟨fun hf => absurd hf (hforking hproc), fun hu => h.born hu, h.closed,
        fun hrun => hhelper hproc id hrun, fun hrun => ?_⟩
      rw [setProc_self] at hrun
      rcases hgone with rfl | rfl <;> exact nomatch hrun

/-- What a step of the parent does. -/
inductive ParentStep (pty : Bool) (out : Outcomes) (w : Spawning) : Spawning → Prop where
  | failed : w.parent = .forking → out.fails .firstFork = true →
      ParentStep pty out w (w.returnWith .forkFailed)
  | forked : w.parent = .forking → out.fails .firstFork = false →
      ParentStep pty out w ({ w with parent := .droppingErr }.setProc .helper
        (.running (helperProgram pty) w.parentHolds))
  | droppedErr : w.parent = .droppingErr →
      ParentStep pty out w
        { w with parent := .droppingSync, parentHolds := without w.parentHolds .err }
  | droppedSync : w.parent = .droppingSync →
      ParentStep pty out w
        { w with parent := .readingErr, parentHolds := without w.parentHolds .monitorSync }
  | readErr {errno : Int} : w.parent = .readingErr → w.written .err ≠ [] →
      ParentStep pty out w (w.returnWith (.osError errno))
  | endOfErr : w.parent = .readingErr → w.written .err = [] → w.isOpen .err = false →
      ParentStep pty out w { w with parent := .readingPid }
  | readPid {result : SpawnResult} : w.parent = .readingPid →
      ParentStep pty out w (w.returnWith result)

theorem stepParent_cases {w w' : Spawning} (h : stepParent pty out w = some w') :
    ParentStep pty out w w' := by
  rw [stepParent] at h
  cases hparent : w.parent with
  | forking =>
      rw [hparent] at h
      dsimp only at h
      by_cases hfail : out.fails .firstFork = true
      · rw [if_pos hfail] at h
        cases h
        exact .failed hparent hfail
      · rw [if_neg hfail] at h
        cases h
        exact .forked hparent (Bool.eq_false_iff.mpr hfail)
  | droppingErr => rw [hparent] at h; cases h; exact .droppedErr hparent
  | droppingSync => rw [hparent] at h; cases h; exact .droppedSync hparent
  | readingErr =>
      rw [hparent] at h
      dsimp only at h
      cases hwritten : w.written .err with
      | cons errno rest =>
          rw [hwritten] at h
          cases h
          exact .readErr hparent (by rw [hwritten]; exact nofun)
      | nil =>
          rw [hwritten] at h
          dsimp only at h
          by_cases hopen : w.isOpen .err = true
          · rw [if_pos hopen] at h
            exact nomatch h
          · rw [if_neg hopen] at h
            cases h
            exact .endOfErr hparent hwritten (Bool.eq_false_iff.mpr hopen)
  | readingPid =>
      rw [hparent] at h
      dsimp only at h
      cases hwritten : w.written .pid with
      | cons pid rest =>
          rw [hwritten] at h
          cases h
          exact .readPid hparent
      | nil =>
          rw [hwritten] at h
          dsimp only at h
          by_cases hopen : w.isOpen .pid = true
          · rw [if_pos hopen] at h
            exact nomatch h
          · rw [if_neg hopen] at h
            cases h
            exact .readPid hparent
  | returned result => rw [hparent] at h; exact nomatch h

theorem sane_parent {w w' : Spawning} (h : Sane pty w) (hstep : ParentStep pty out w w') :
    Sane pty w' := by
  have hreturns : ∀ {result}, w.parent = .forking ∨ w.parentHolds .err = false →
      Sane pty (w.returnWith result) := by
    intro result hbefore
    refine h.of_procs rfl rfl nofun (.inr ⟨_, rfl⟩) (fun _ => ⟨_, rfl⟩) (.inr ?_)
    cases result with
    | ok pid monitor => cases monitor <;> rfl
    | _ => rfl
  have hpast : ∀ {at' : ParentAt}, w.parent = at' → at' ≠ .forking → at' ≠ .droppingErr →
      w.parentHolds .err = false := by
    rintro at' rfl hf hd
    exact (h.closed.resolve_left hf).resolve_left hd
  cases hstep with
  | failed hparent _ => exact hreturns (.inl hparent)
  | forked hparent _ =>
      obtain ⟨hholds, -, hchild⟩ := h.forking hparent
      refine ⟨nofun, fun hu => ?_, .inr (.inl rfl), fun hrun => ?_, fun hrun => ?_⟩
      · rw [setProc_self] at hu
        exact nomatch hu
      · rw [setProc_self] at hrun
        cases hrun
        rw [hholds]
        refine ⟨(List.mem_tails _ _).mpr (List.suffix_refl _), fun _ => ?_, rfl, fun hsent => ?_,
          fun _ => ⟨hchild, rfl⟩⟩
        · cases pty <;> decide
        · exact absurd (by cases pty <;> decide) hsent
      · have hrun' : w.procs .child = _ := hrun
        exact nomatch hchild.symm.trans hrun'
  | droppedErr hparent =>
      exact h.of_procs rfl rfl nofun (.inl (by rw [hparent]; exact nofun))
        (fun ⟨_, hr⟩ => nomatch hparent.symm.trans hr) (.inr rfl)
  | droppedSync hparent =>
      refine h.of_procs rfl rfl nofun (.inl (by rw [hparent]; exact nofun))
        (fun ⟨_, hr⟩ => nomatch hparent.symm.trans hr) (.inr ?_)
      exact hpast hparent nofun nofun
  | readErr hparent _ => exact hreturns (.inr (hpast hparent nofun nofun))
  | endOfErr hparent _ _ =>
      exact h.of_procs rfl rfl nofun (.inl (by rw [hparent]; exact nofun))
        (fun ⟨_, hr⟩ => nomatch hparent.symm.trans hr) (.inr (hpast hparent nofun nofun))
  | readPid hparent => exact hreturns (.inr (hpast hparent nofun nofun))

/-- A step of the whole. -/
theorem step_cases {w w' : Spawning} {runner : Runner} (h : SpawnStep pty out w runner w') :
    ParentStep pty out w w' ∨ ∃ role, Acted pty out w role w' := by
  cases runner with
  | parent => exact .inl (stepParent_cases h)
  | proc role => exact .inr ⟨role, stepProc_acted h⟩

/-- The step lemma. -/
theorem sane_step {w w' : Spawning} {runner : Runner} (h : Sane pty w)
    (hstep : SpawnStep pty out w runner w') : Sane pty w' := by
  rcases step_cases hstep with hparent | ⟨role, hacted⟩
  · exact sane_parent h hparent
  · cases role with
    | helper => exact sane_helper h hacted
    | child => exact sane_child h hacted

/-- The run lemma. -/
theorem sane_run {w : Spawning} {runners : List Runner}
    (hrun : Run (SpawnStep pty out) start runners w) : Sane pty w :=
  hrun.invariant (I := Sane pty) sane_step (sane_start pty)

end Invariant

end BeamSpawnPipes
