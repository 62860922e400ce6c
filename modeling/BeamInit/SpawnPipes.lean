import BeamInit.SpawnSteps

/-! # The pipes of a spawn — when the parent gets its answer

    The parent reads the error pipe to its end and then the pid pipe.  It gets
    its answer exactly when the helper writes the pid, or the service process
    writes why it could not execute; otherwise it keeps the pid pipe open itself
    and reads on for ever. -/

namespace BeamSpawnPipes

open Runs

/-! ## The parent is attended -/

section Attended

variable {pty : Bool} {out : Outcomes} {w w' : Spawning}

theorem running_of_holds {proc : ProcState} {pipe : Pipe} (h : proc.holds pipe = true) :
    ∃ todo holds, proc = .running todo holds ∧ holds pipe = true := by
  cases proc with
  | running todo holds => exact ⟨todo, holds, rfl, h⟩
  | unborn | execed | exited => exact nomatch h

/-- While the error pipe is open, a process that closes it is at work. -/
theorem attended_err (h : Sane pty w) (hpast : w.parent ≠ .forking ∧ w.parent ≠ .droppingErr)
    (hopen : w.isOpen .err = true) : ∃ role, Attends w .err role := by
  have hparent := (h.closed.resolve_left hpast.1).resolve_left hpast.2
  rw [Spawning.isOpen, hparent, Bool.false_or, Bool.or_eq_true] at hopen
  rcases hopen with hhelper | hchild
  · obtain ⟨todo, holds, hproc, herr⟩ := running_of_holds hhelper
    have hat := h.helper hproc
    exact ⟨.helper, todo, holds, hproc, herr, helper_touches_err pty todo hat.ahead (hat.dropsErr herr)⟩
  · obtain ⟨todo, holds, hproc, herr⟩ := running_of_holds hchild
    have hat := h.child hproc
    exact ⟨.child, todo, holds, hproc, herr, child_touches_err pty todo hat.ahead hat.ne_nil⟩

/-- A parent that is stuck reads the pid pipe, and the helper is gone without a pid. -/
theorem stuck_at_pid (h : Sane pty w) (hstuck : Stuck w) :
    w.parent = .readingPid ∧ w.written .pid = []
      ∧ (w.procs .helper = .exited ∨ w.procs .helper = .execed) := by
  obtain ⟨pipe, ⟨hat | hat, hempty, hopen⟩, hnone⟩ := hstuck
  · obtain ⟨hparent, rfl⟩ := hat
    obtain ⟨role, hattends⟩ := attended_err h (by rw [hparent]; exact ⟨nofun, nofun⟩) hopen
    exact absurd hattends (hnone role)
  · obtain ⟨hparent, rfl⟩ := hat
    refine ⟨hparent, hempty, ?_⟩
    cases hproc : w.procs .helper with
    | unborn =>
        rcases h.born hproc with hf | ⟨_, hr⟩
        · exact nomatch hparent.symm.trans hf
        · exact nomatch hparent.symm.trans hr
    | running todo holds =>
        -- It has not written the pid yet, so it still does.
        have hrun := h.helper hproc
        have hsend : Act.send .pid ∈ todo := by
          by_contra hsent
          exact hrun.sent hsent hempty
        exact absurd ⟨todo, holds, hproc, hrun.holdsPid,
          (helper_before_pid pty todo hrun.ahead hsend).1⟩ (hnone .helper)
    | execed => exact .inr rfl
    | exited => exact .inl rfl

/-! ### The helper writes the pid -/

theorem before_pid_acts (pty : Bool) :
    ∀ a ∈ setup pty ++ Act.fork :: (handOver pty ++ [Act.send .pid]),
      a ≠ Act.exit ∧ a ≠ Act.wait ∧ a ≠ Act.exec := by
  cases pty <;> decide +kernel

/-- A helper that is gone has written the pid. -/
def Wrote (w : Spawning) : Prop :=
  w.procs .helper = .exited ∨ w.procs .helper = .execed → w.written .pid ≠ []

/-- No process ends at an act that succeeds and is none of the last ones. -/
theorem not_ended {a : Act} (hacts : a ≠ .exit ∧ a ≠ .wait ∧ a ≠ .exec)
    (hok : Act.succeeds out a = true) : ¬(Act.succeeds out a = false ∨ a = .exit ∨ a = .wait
      ∨ (a = .exec ∧ out.fails .execvp = false)) := by
  obtain ⟨hexit, hwait, hexec⟩ := hacts
  rintro (hfail | heq | heq | ⟨heq, -⟩)
  · exact nomatch hfail.symm.trans hok
  · exact hexit heq
  · exact hwait heq
  · exact hexec heq

theorem wrote_step {runner : Runner} (hreports : HelperReports pty out) (h : Sane pty w)
    (hwrote : Wrote w) (hstep : SpawnStep pty out w runner w') : Wrote w' := by
  rcases step_cases hstep with hparent | ⟨role, hacted⟩
  · cases hparent with
    | forked _ _ =>
        intro hgone
        rw [setProc_self] at hgone
        rcases hgone with hgone | hgone <;> exact nomatch hgone
    | failed _ _ | droppedErr _ | droppedSync _ | readErr _ _ | endOfErr _ _ _ | readPid _ =>
        exact hwrote
  · cases role with
    | helper =>
        cases hacted with
        | moved _ _ _ _ _ _ | sent _ _ =>
            intro hgone
            simp only [write_procs, setProc_self] at hgone
            rcases hgone with hgone | hgone <;> exact nomatch hgone
        | forked _ _ =>
            intro hgone
            rw [setProc_other (nofun : Role.helper ≠ .child), setProc_self] at hgone
            rcases hgone with hgone | hgone <;> exact nomatch hgone
        | @ended a rest holds proc hproc hgone hwhy =>
            intro _
            have hat := h.helper hproc
            refine hat.sent (fun hsend => ?_)
            have hmem := (helper_before_pid pty _ hat.ahead hsend).2 a rfl
            exact not_ended (before_pid_acts pty a hmem) (hreports a hmem) hwhy
    | child =>
        intro hgone
        rw [acted_helper hacted] at hgone
        exact acted_written hacted (hwrote hgone)

/-! ### The service process reports why it could not execute -/

/-- An error is written, or a process that will write one is at work. -/
inductive Reporting (w : Spawning) : Prop where
  | forking : w.parent = .forking → Reporting w
  | returned {result : SpawnResult} : w.parent = .returned result → Reporting w
  | wrote : w.written .err ≠ [] → Reporting w
  | child {todo : List Act} {holds : Pipe → Bool} :
      w.procs .child = .running todo holds → Act.send .err ∈ todo → Reporting w
  | helper {todo : List Act} {holds : Pipe → Bool} :
      w.procs .helper = .running todo holds → Act.fork ∈ todo → Reporting w

theorem before_fork_acts (pty : Bool) : ∀ a ∈ setup pty ++ [Act.fork],
    a ≠ Act.exit ∧ a ≠ Act.wait ∧ a ≠ Act.exec := by
  intro a ha
  refine before_pid_acts pty a (List.mem_append.mpr ((List.mem_append.mp ha).imp_right ?_))
  rintro hfork
  rw [List.mem_singleton.mp hfork]
  exact List.mem_cons_self

/-- A report that is to come keeps the error pipe open. -/
theorem isOpen_of_reporting (h : Sane pty w) (hreporting : Reporting w)
    (hparent : w.parent = .readingErr) (hempty : w.written .err = []) : w.isOpen .err = true := by
  rw [Spawning.isOpen]
  cases hreporting with
  | forking hf => exact nomatch hparent.symm.trans hf
  | returned hr => exact nomatch hparent.symm.trans hr
  | wrote hne => exact absurd hempty hne
  | child hproc _ =>
      rw [hproc]
      show (_ || _ || _) = true
      rw [show ProcState.holds (.running _ _) .err = true from (h.child hproc).holdsErr, Bool.or_true]
  | helper hproc hfork =>
      rw [hproc]
      show (_ || _ || _) = true
      rw [show ProcState.holds (.running _ _) .err = true from ((h.helper hproc).unforked hfork).2,
        Bool.or_true, Bool.true_or]

theorem reporting_step {runner : Runner} (hreports : ChildReports pty out) (h : Sane pty w)
    (hbefore : w.parent ≠ .readingPid) (hreporting : Reporting w)
    (hstep : SpawnStep pty out w runner w') : w'.parent ≠ .readingPid ∧ Reporting w' := by
  obtain ⟨hsetup, hchild, hexecvp, hreport⟩ := hreports
  rcases step_cases hstep with hparent | ⟨role, hacted⟩
  · cases hparent with
    | failed _ _ | readErr _ _ => exact ⟨nofun, .returned rfl⟩
    | forked _ _ =>
        refine ⟨nofun, .helper (setProc_self _ _ _) ?_⟩
        cases pty <;> decide
    | droppedErr hparent | droppedSync hparent =>
        refine ⟨nofun, ?_⟩
        cases hreporting with
        | forking hf => exact nomatch hparent.symm.trans hf
        | returned hr => exact nomatch hparent.symm.trans hr
        | wrote hne => exact .wrote hne
        | child hproc hsend => exact .child hproc hsend
        | helper hproc hfork => exact .helper hproc hfork
    | endOfErr hparent hempty hclosed =>
        exact nomatch (isOpen_of_reporting h hreporting hparent hempty).symm.trans hclosed
    | readPid hparent => exact absurd hparent hbefore
  · have hsame := acted_parent hacted
    refine ⟨by rw [hsame]; exact hbefore, ?_⟩
    cases hreporting with
    | forking hf => exact .forking (hsame.trans hf)
    | returned hr => exact .returned (hsame.trans hr)
    | wrote hne => exact .wrote (acted_written hacted hne)
    | @child todo holds hproc hsend =>
        cases role with
        | helper =>
            cases hacted with
            | moved _ _ _ _ _ _ | sent _ _ | ended _ _ _ => exact .child hproc hsend
            | forked hhelper _ =>
                have hunborn := ((h.helper hhelper).unforked List.mem_cons_self).1
                exact nomatch hunborn.symm.trans hproc
        | child =>
            have hat := h.child hproc
            cases hacted with
            | moved hproc' hok hfork hnosend hexit hholds =>
                cases hproc.symm.trans hproc'
                refine .child (setProc_self _ _ _) ?_
                exact (List.mem_cons.mp hsend).resolve_left (fun heq => hnosend .err heq.symm)
            | forked hproc' hok =>
                cases hproc.symm.trans hproc'
                exact absurd rfl (child_acts pty _ (mem_of_tails hat.ahead)).1
            | @sent p rest holds value hproc' hok =>
                cases hproc.symm.trans hproc'
                rcases List.mem_cons.mp hsend with heq | hmem
                · exact .wrote (written_write _ p value .err (.inl (Act.send.inj heq)))
                · have hrest : (w.setProc .child (.running rest holds)).procs .child
                      = .running rest holds := setProc_self _ _ _
                  exact .child hrest hmem
            | @ended a rest holds proc hproc' hgone hwhy =>
                cases hproc.symm.trans hproc'
                have hacts := child_acts pty a (mem_of_tails hat.ahead)
                have hhead := child_before_report pty _ hat.ahead hsend a rfl
                rcases hwhy with hfail | heq | heq | ⟨-, hexec⟩
                · rcases hhead with rfl | ⟨hmem, -⟩
                  · exact nomatch hfail
                  · rcases List.mem_append.mp hmem with hmem | hmem
                    · exact nomatch hfail.symm.trans (hchild a hmem)
                    · exact nomatch hfail.symm.trans (hreport a hmem)
                · rcases hhead with rfl | ⟨-, hexit⟩
                  · exact nomatch heq
                  · exact absurd heq hexit
                · exact absurd heq hacts.2.2.1
                · exact nomatch hexecvp.symm.trans hexec
    | @helper todo holds hproc hfork =>
        cases role with
        | child => exact .helper ((acted_helper hacted).trans hproc) hfork
        | helper =>
            have hat := h.helper hproc
            cases hacted with
            | moved hproc' hok hnofork hnosend hexit hholds =>
                cases hproc.symm.trans hproc'
                exact .helper (setProc_self _ _ _)
                  ((List.mem_cons.mp hfork).resolve_left (fun heq => hnofork heq.symm))
            | forked hproc' hok =>
                refine .child (setProc_self _ _ _) ?_
                cases pty <;> decide
            | @sent p rest holds value hproc' hok =>
                cases hproc.symm.trans hproc'
                have hrest : (w.setProc .helper (.running rest holds)).procs .helper
                    = .running rest holds := setProc_self _ _ _
                exact .helper hrest ((List.mem_cons.mp hfork).resolve_left nofun)
            | @ended a rest holds proc hproc' hgone hwhy =>
                cases hproc.symm.trans hproc'
                have hmem := ((helper_before_fork pty _ hat.ahead hfork).2 a rfl).1
                exact absurd hwhy (not_ended (before_fork_acts pty a hmem) (hsetup a hmem))

/-! ### No run gets stuck -/

/-- Without a first fork, the parent returns at once. -/
theorem returned_step {runner : Runner} (hfail : out.fails .firstFork = true)
    (hbefore : w.parent = .forking ∨ ∃ result, w.parent = .returned result)
    (hstep : SpawnStep pty out w runner w') :
    w'.parent = .forking ∨ ∃ result, w'.parent = .returned result := by
  have hnot : ∀ {at' : ParentAt}, w.parent = at' → at' ≠ .forking →
      (∀ result, at' ≠ .returned result) → False := by
    rintro at' rfl hf hr
    rcases hbefore with heq | ⟨result, heq⟩
    · exact hf heq
    · exact hr result heq
  rcases step_cases hstep with hparent | ⟨role, hacted⟩
  · cases hparent with
    | failed _ _ => exact .inr ⟨_, rfl⟩
    | forked _ hok => exact nomatch hfail.symm.trans hok
    | droppedErr hp | droppedSync hp | readErr hp _ | endOfErr hp _ _ | readPid hp =>
        exact (hnot hp nofun (fun _ => nofun)).elim
  · rw [acted_parent hacted]
    exact hbefore

/-- **No run that reports gets stuck.** -/
theorem not_stuck {runners : List Runner} (hreports : Reports pty out)
    (hrun : Run (SpawnStep pty out) start runners w) : ¬Stuck w := by
  intro hstuck
  obtain ⟨hparent, hempty, hgone⟩ := stuck_at_pid (sane_run hrun) hstuck
  rcases hreports with hfail | hreports | hreports
  · have hat := (hrun.invariant
      (I := fun w => Sane pty w ∧ (w.parent = .forking ∨ ∃ result, w.parent = .returned result))
      (fun hi hstep => ⟨sane_step hi.1 hstep, returned_step hfail hi.2 hstep⟩)
      ⟨sane_start pty, .inl rfl⟩).2
    rw [hparent] at hat
    rcases hat with heq | ⟨_, heq⟩ <;> exact nomatch heq
  · have hwrote := (hrun.invariant (I := fun w => Sane pty w ∧ Wrote w)
      (fun hi hstep => ⟨sane_step hi.1 hstep, wrote_step hreports hi.1 hi.2 hstep⟩)
      ⟨sane_start pty, fun hgone => by rcases hgone with heq | heq <;> exact nomatch heq⟩).2
    exact hwrote hgone hempty
  · have hbefore := (hrun.invariant
      (I := fun w => Sane pty w ∧ w.parent ≠ .readingPid ∧ Reporting w)
      (fun hi hstep => ⟨sane_step hi.1 hstep, reporting_step hreports hi.1 hi.2.1 hi.2.2 hstep⟩)
      ⟨sane_start pty, nofun, .forking rfl⟩).2.1
    exact hbefore hparent

end Attended

/-! ## A run that gets stuck -/

section Runs

variable {pty : Bool} {out : Outcomes} {w : Spawning}

theorem setProc_setProc (w : Spawning) (role : Role) (proc proc' : ProcState) :
    (w.setProc role proc).setProc role proc' = w.setProc role proc' := by
  show { w with procs := _ } = { w with procs := _ }
  congr 1
  funext r
  by_cases hr : r = role
  · rw [if_pos hr, if_pos hr]
  · rw [if_neg hr, if_neg hr]
    exact if_neg hr

theorem setProc_eq_self {role : Role} {proc : ProcState} (h : w.procs role = proc) :
    w.setProc role proc = w := by
  show { w with procs := _ } = w
  rw [← h]
  have hprocs : (fun r => if r = role then w.procs role else w.procs r) = w.procs := by
    funext r
    by_cases hr : r = role
    · rw [if_pos hr, hr]
    · rw [if_neg hr]
  rw [hprocs]

theorem proc_step (pty : Bool) (out : Outcomes) {role : Role} {a : Act} {rest : List Act}
    {holds : Pipe → Bool} {w' : Spawning}
    (hproc : w.procs role = .running (a :: rest) holds)
    (hact : act pty out w role rest holds a = some w') :
    SpawnStep pty out w (.proc role) w' := by
  show stepProc pty out w role = some w'
  rw [stepProc, hproc]
  exact hact

def isQuiet : Act → Bool
  | .drop _ => true
  | .call _ => true
  | _ => false

/-- The process gets through its next acts, or exits at one that fails. -/
def RunsThrough (pty : Bool) (out : Outcomes) (w : Spawning) (role : Role)
    (acts rest : List Act) : Prop :=
  (∃ runners holds, (∀ a ∈ acts, Act.succeeds out a = true)
      ∧ Run (SpawnStep pty out) w runners (w.setProc role (.running rest holds)))
    ∨ (∃ runners, (∃ a ∈ acts, Act.succeeds out a = false)
      ∧ Run (SpawnStep pty out) w runners (w.setProc role .exited))

/-- Acts that only close ends and make calls never block. -/
theorem run_quiet (pty : Bool) (out : Outcomes) {role : Role} {acts rest : List Act}
    {holds : Pipe → Bool}
    (hquiet : ∀ a ∈ acts, isQuiet a = true)
    (hproc : w.procs role = .running (acts ++ rest) holds) :
    RunsThrough pty out w role acts rest := by
  induction acts generalizing w holds with
  | nil =>
      have hproc' : w.procs role = .running rest holds := hproc
      refine .inl ⟨[], holds, fun _ hmem => absurd hmem List.not_mem_nil, ?_⟩
      rw [setProc_eq_self hproc']
      exact .nil w
  | cons a acts ih =>
      have hrest : ∀ b ∈ acts, isQuiet b = true := fun b hb => hquiet b (List.mem_cons_of_mem _ hb)
      -- One act, then the rest.
      have hgoes : ∀ holds', Act.succeeds out a = true →
          act pty out w role (acts ++ rest) holds a
            = some (w.setProc role (.running (acts ++ rest) holds')) →
          RunsThrough pty out w role (a :: acts) rest := by
        intro holds' hok hact
        have hstep := proc_step pty out hproc hact
        rcases ih hrest (setProc_self w role _) with
          ⟨runners, holds'', hall, hrun⟩ | ⟨runners, hfail, hrun⟩
        · rw [setProc_setProc] at hrun
          refine Or.inl ⟨.proc role :: runners, holds'', fun b hb => ?_, .cons hstep hrun⟩
          rcases List.mem_cons.mp hb with rfl | hb
          · exact hok
          · exact hall b hb
        · rw [setProc_setProc] at hrun
          obtain ⟨b, hb, hfail⟩ := hfail
          exact Or.inr ⟨.proc role :: runners, ⟨b, List.mem_cons_of_mem _ hb, hfail⟩,
            .cons hstep hrun⟩
      cases a with
      | drop pipe => exact hgoes _ rfl rfl
      | call c =>
          cases hfail : out.fails c with
          | false =>
              refine hgoes holds (by rw [Act.succeeds, hfail]; rfl) ?_
              show some (w.setProc role (if out.fails c then _ else _)) = _
              rw [hfail]
              rfl
          | true =>
              refine .inr ⟨[.proc role], ⟨_, List.mem_cons_self, by rw [Act.succeeds, hfail]; rfl⟩,
                .single (proc_step pty out hproc ?_)⟩
              show some (w.setProc role (if out.fails c then _ else _)) = _
              rw [hfail]
              rfl
      | fork | send _ | wait | exec | exit | serve =>
          exact absurd (hquiet _ List.mem_cons_self) Bool.false_ne_true

/-- A service process that writes no error can run to its end without writing. -/
theorem child_ends {holds : Pipe → Bool}
    (hproc : w.procs .child = .running (childProgram pty) holds)
    (hsilent : ¬((∀ a ∈ childSetup pty, Act.succeeds out a = true) ∧ out.fails .execvp = true
      ∧ ∀ a ∈ childReport, Act.succeeds out a = true)) :
    ∃ runners proc, Run (SpawnStep pty out) w runners (w.setProc .child proc)
      ∧ (proc = .exited ∨ proc = .execed) := by
  rw [childProgram] at hproc
  rcases run_quiet pty out (by cases pty <;> decide) hproc with
    ⟨runners, holds', hsetup, hrun⟩ | ⟨runners, -, hrun⟩
  · cases hexec : out.fails .execvp with
    | false =>
        refine ⟨runners ++ [.proc .child], .execed, hrun.snoc ?_, .inr rfl⟩
        refine proc_step pty out (setProc_self w .child _) ?_
        show some ((w.setProc .child _).setProc .child (if out.fails .execvp then _ else _)) = _
        rw [hexec, setProc_setProc]
        rfl
    | true =>
        have hstep : SpawnStep pty out (w.setProc .child (.running (.exec :: childReport) holds'))
            (.proc .child) (w.setProc .child (.running childReport holds')) := by
          refine proc_step pty out (setProc_self w .child _) ?_
          show some ((w.setProc .child _).setProc .child (if out.fails .execvp then _ else _)) = _
          rw [hexec, setProc_setProc]
          rfl
        have hreport : (w.setProc .child (.running childReport holds')).procs .child
            = .running ([.call .lastOsError] ++ [.send .err, .exit]) holds' := setProc_self w .child _
        rcases run_quiet pty out (by decide) hreport with
          ⟨runners', holds'', hlast, hrun'⟩ | ⟨runners', -, hrun'⟩
        · rw [setProc_setProc] at hrun'
          cases hwrite : out.fails .writeErrno with
          | true =>
              refine ⟨runners ++ (.proc .child :: (runners' ++ [.proc .child])), .exited,
                hrun.append (.cons hstep (hrun'.snoc ?_)), .inl rfl⟩
              refine proc_step pty out (setProc_self w .child _) ?_
              show (if out.fails .writeErrno then _ else _) = _
              rw [hwrite, if_pos rfl, setProc_setProc]
          | false =>
              refine absurd ⟨hsetup, hexec, fun a ha => ?_⟩ hsilent
              simp only [childReport, List.mem_cons, List.not_mem_nil, or_false] at ha
              rcases ha with rfl | rfl | rfl
              · exact hlast _ List.mem_cons_self
              · show (!out.fails .writeErrno) = true
                rw [hwrite]
                rfl
              · rfl
        · rw [setProc_setProc] at hrun'
          exact ⟨runners ++ (.proc .child :: runners'), .exited,
            hrun.append (.cons hstep hrun'), .inl rfl⟩
  · exact ⟨runners, .exited, hrun, .inl rfl⟩

/-- A helper that does not report can run to its end without writing; it forks
    the service process if it gets there. -/
theorem helper_ends {holds : Pipe → Bool}
    (hproc : w.procs .helper = .running (helperProgram pty) holds)
    (hunborn : w.procs .child = .unborn) (hsilent : ¬HelperReports pty out) :
    ∃ runners w', Run (SpawnStep pty out) w runners w' ∧ w'.procs .helper = .exited
      ∧ w'.parent = w.parent ∧ w'.parentHolds = w.parentHolds ∧ w'.written = w.written
      ∧ (w'.procs .child = .unborn
        ∨ ((∀ a ∈ setup pty ++ [.fork], Act.succeeds out a = true)
          ∧ ∃ holds', w'.procs .child = .running (childProgram pty) holds')) := by
  have hne : Role.child ≠ .helper := nofun
  rw [helperProgram] at hproc
  rcases run_quiet pty out (by cases pty <;> decide) hproc with
    ⟨runners, holds', hsetup, hrun⟩ | ⟨runners, -, hrun⟩
  · cases hfork : out.fails .serviceFork with
    | true =>
        refine ⟨runners ++ [.proc .helper], w.setProc .helper .exited, hrun.snoc ?_,
          setProc_self w .helper _, rfl, rfl, rfl, .inl ?_⟩
        · refine proc_step pty out (setProc_self w .helper _) ?_
          show (if out.fails .serviceFork then _ else _) = _
          rw [hfork, if_pos rfl, setProc_setProc]
        · rw [setProc_other hne]
          exact hunborn
    | false =>
        have hforked : ∀ a ∈ setup pty ++ [.fork], Act.succeeds out a = true := by
          intro a ha
          rcases List.mem_append.mp ha with ha | ha
          · exact hsetup a ha
          · rw [List.mem_singleton.mp ha, Act.succeeds, hfork]
            rfl
        let forked := ((w.setProc .helper (.running
          (handOver pty ++ .send .pid :: afterPid pty) holds')).setProc .child
            (.running (childProgram pty) holds'))
        have hstep : SpawnStep pty out (w.setProc .helper (.running
            (.fork :: (handOver pty ++ .send .pid :: afterPid pty)) holds')) (.proc .helper)
            forked := by
          refine proc_step pty out (setProc_self w .helper _) ?_
          show (if out.fails .serviceFork then _ else _) = _
          rw [hfork, if_neg Bool.false_ne_true, setProc_setProc]
        have hchild : ∀ proc, (forked.setProc .helper proc).procs .child
            = .running (childProgram pty) holds' := fun proc => setProc_other hne
        have hhelper : forked.procs .helper = .running
            (handOver pty ++ .send .pid :: afterPid pty) holds' :=
          (setProc_other hne.symm).trans (setProc_self w .helper _)
        rcases run_quiet pty out (by cases pty <;> decide) hhelper with
          ⟨runners', holds'', hdrops, hrun'⟩ | ⟨runners', -, hrun'⟩
        · cases hwrite : out.fails .writePid with
          | true =>
              refine ⟨runners ++ (.proc .helper :: (runners' ++ [.proc .helper])),
                forked.setProc .helper .exited, hrun.append (.cons hstep (hrun'.snoc ?_)),
                setProc_self forked .helper _, rfl, rfl, rfl, .inr ⟨hforked, holds', hchild _⟩⟩
              refine proc_step pty out (setProc_self forked .helper _) ?_
              show (if out.fails .writePid then _ else _) = _
              rw [hwrite, if_pos rfl, setProc_setProc]
          | false =>
              refine absurd (fun a ha => ?_) hsilent
              rcases List.mem_append.mp ha with ha | ha
              · exact hsetup a ha
              · rcases List.mem_cons.mp ha with rfl | ha
                · exact hforked _ (List.mem_append_right _ (List.mem_singleton_self _))
                · rcases List.mem_append.mp ha with ha | ha
                  · exact hdrops a ha
                  · rw [List.mem_singleton.mp ha]
                    show (!out.fails .writePid) = true
                    rw [hwrite]
                    rfl
        · exact ⟨runners ++ (.proc .helper :: runners'), forked.setProc .helper .exited,
            hrun.append (.cons hstep hrun'), setProc_self forked .helper _, rfl, rfl, rfl,
            .inr ⟨hforked, holds', hchild _⟩⟩
  · refine ⟨runners, _, hrun, setProc_self w .helper _, rfl, rfl, rfl, .inl ?_⟩
    rw [setProc_other hne]
    exact hunborn

/-- The processes are gone and nothing is written: the parent reads on for ever. -/
theorem parent_gets_stuck (pty : Bool) (out : Outcomes) (hparent : w.parent = .droppingErr)
    (hholds : w.parentHolds = fun _ => true) (hwritten : w.written = fun _ => [])
    (hgone : ∀ role todo holds, w.procs role ≠ .running todo holds) :
    ∃ runners w', Run (SpawnStep pty out) w runners w' ∧ Stuck w' := by
  have hclosed : ∀ role pipe, (w.procs role).holds pipe = false := by
    intro role pipe
    cases hproc : w.procs role with
    | running todo holds => exact absurd hproc (hgone role todo holds)
    | unborn | execed | exited => rfl
  let w₁ : Spawning :=
    { w with parent := .droppingSync, parentHolds := without w.parentHolds .err }
  let w₂ : Spawning :=
    { w₁ with parent := .readingErr, parentHolds := without w₁.parentHolds .monitorSync }
  let w₃ : Spawning := { w₂ with parent := .readingPid }
  have h₁ : SpawnStep pty out w .parent w₁ := by
    show stepParent pty out w = _
    rw [stepParent, hparent]
  have h₃ : SpawnStep pty out w₂ .parent w₃ := by
    have hopen : w₂.isOpen .err = false := by
      show (false || (w.procs .helper).holds .err || (w.procs .child).holds .err) = false
      rw [hclosed, hclosed]
      rfl
    have hempty : w₂.written .err = [] := by
      show w.written .err = []
      rw [hwritten]
    show stepParent pty out w₂ = _
    rw [stepParent, hempty, hopen]
    rfl
  refine ⟨[.parent, .parent, .parent], w₃, .cons h₁ (.cons rfl (.single h₃)), .pid, ⟨.inr ⟨rfl, rfl⟩,
    ?_, ?_⟩, ?_⟩
  · show w.written .pid = []
    rw [hwritten]
  · show (w.parentHolds .pid || (w.procs .helper).holds .pid || (w.procs .child).holds .pid) = true
    rw [hholds]
    rfl
  · rintro role ⟨todo, holds, hproc, -⟩
    exact hgone role todo holds hproc

/-- **A run that does not report can get stuck.** -/
theorem exists_stuck (hsilent : ¬Reports pty out) :
    ∃ runners w, Run (SpawnStep pty out) start runners w ∧ Stuck w := by
  obtain ⟨hfork, hhelper, hchild⟩ : out.fails .firstFork ≠ true ∧ ¬HelperReports pty out
      ∧ ¬ChildReports pty out :=
    ⟨fun hf => hsilent (.inl hf), fun hh => hsilent (.inr (.inl hh)),
      fun hc => hsilent (.inr (.inr hc))⟩
  let w₁ : Spawning := { start with parent := .droppingErr }.setProc .helper
    (.running (helperProgram pty) fun _ => true)
  have hfirst : SpawnStep pty out start .parent w₁ := by
    show (if out.fails .firstFork then _ else _) = _
    rw [if_neg hfork]
    rfl
  obtain ⟨runners, w₂, hrun, hgone, hparent, hholds, hwritten, hborn⟩ :=
    helper_ends (w := w₁) (setProc_self _ _ _) rfl hhelper
  have hnot : ∀ {w : Spawning}, w.procs .helper = .exited →
      (∀ todo holds, w.procs .child ≠ .running todo holds) →
      ∀ role todo holds, w.procs role ≠ .running todo holds := by
    intro w hhelper hchild role todo holds hproc
    cases role with
    | helper => exact nomatch hhelper.symm.trans hproc
    | child => exact hchild todo holds hproc
  rcases hborn with hunborn | ⟨hsetup, holds, hproc⟩
  · obtain ⟨runners', w₃, hrun', hstuck⟩ := parent_gets_stuck pty out hparent
      hholds hwritten (hnot hgone (fun todo holds hproc => nomatch hunborn.symm.trans hproc))
    exact ⟨.parent :: (runners ++ runners'), w₃, .cons hfirst (hrun.append hrun'), hstuck⟩
  · obtain ⟨runners', proc, hrun', hend⟩ :=
      child_ends hproc (fun hreports => hchild ⟨hsetup, hreports⟩)
    have hchild' : ∀ todo holds, (w₂.setProc .child proc).procs .child ≠ .running todo holds := by
      intro todo holds heq
      rw [setProc_self] at heq
      rcases hend with rfl | rfl <;> exact nomatch heq
    obtain ⟨runners'', w₃, hrun'', hstuck⟩ := parent_gets_stuck pty out
      (w := w₂.setProc .child proc) hparent hholds hwritten
      (hnot ((setProc_other (nofun : Role.helper ≠ .child)).trans hgone) hchild')
    exact ⟨.parent :: (runners ++ (runners' ++ runners'')), w₃,
      .cons hfirst (hrun.append (hrun'.append hrun'')), hstuck⟩

end Runs

/-! ## Every run ends -/

section Ending

variable {pty : Bool} {out : Outcomes} {w w' : Spawning}

/-- The acts a process can still take. -/
def ProcState.left (program : List Act) : ProcState → Nat
  | .unborn => program.length + 1
  | .running todo _ => todo.length
  | .execed => 0
  | .exited => 0

def ParentAt.left : ParentAt → Nat
  | .forking => 5
  | .droppingErr => 4
  | .droppingSync => 3
  | .readingErr => 2
  | .readingPid => 1
  | .returned _ => 0

/-- The steps that can still be taken. -/
def Spawning.left (pty : Bool) (w : Spawning) : Nat :=
  w.parent.left + (w.procs .helper).left (helperProgram pty)
    + (w.procs .child).left (childProgram pty)

theorem left_running (program todo : List Act) (holds : Pipe → Bool) :
    (ProcState.running todo holds).left program = todo.length := rfl

/-- An act that ends its process or leaves the rest of its acts takes a step. -/
theorem left_setProc {role : Role} {a : Act} {rest : List Act} {holds : Pipe → Bool}
    {proc : ProcState} (hproc : w.procs role = .running (a :: rest) holds)
    (hrest : ∀ program, proc.left program ≤ rest.length) :
    (w.setProc role proc).left pty + 1 ≤ w.left pty := by
  cases role with
  | helper =>
      have hhelper := hrest (helperProgram pty)
      simp only [Spawning.left, setProc_parent, setProc_self,
        setProc_other (nofun : Role.child ≠ .helper), hproc, left_running, List.length_cons]
      omega
  | child =>
      have hchild := hrest (childProgram pty)
      simp only [Spawning.left, setProc_parent, setProc_self,
        setProc_other (nofun : Role.helper ≠ .child), hproc, left_running, List.length_cons]
      omega

/-- Every step takes one of the steps left. -/
theorem left_step {runner : Runner} (h : Sane pty w) (hstep : SpawnStep pty out w runner w') :
    w'.left pty + 1 ≤ w.left pty := by
  rcases step_cases hstep with hparent | ⟨role, hacted⟩
  · cases hparent with
    | forked hparent _ =>
        have hhelper := (h.forking hparent).2.1
        show ParentAt.left .droppingErr + (helperProgram pty).length + _ + 1 ≤ _
        rw [Spawning.left, hparent, hhelper]
        show 4 + (helperProgram pty).length + (w.procs .child).left (childProgram pty) + 1
          ≤ 5 + ((helperProgram pty).length + 1) + (w.procs .child).left (childProgram pty)
        omega
    | failed hparent _ | droppedErr hparent | droppedSync hparent | readErr hparent _
      | endOfErr hparent _ _ | readPid hparent =>
        rw [Spawning.left, Spawning.left, hparent]
        simp only [Spawning.returnWith, ParentAt.left]
        omega
  · cases hacted with
    | moved hproc _ _ _ _ _ | sent hproc _ =>
        exact left_setProc hproc fun _ => Nat.le_refl _
    | ended hproc hgone _ =>
        refine left_setProc hproc fun _ => ?_
        rcases hgone with rfl | rfl
        · exact Nat.zero_le _
        · exact Nat.zero_le _
    | forked hproc _ =>
        cases role with
        | helper =>
            -- the child is born with its whole program, which was counted with its birth
            have hunborn := ((h.helper hproc).unforked List.mem_cons_self).1
            simp only [Spawning.left, setProc_parent, setProc_self,
              setProc_other (nofun : Role.helper ≠ .child), hproc, hunborn, ProcState.left,
              List.length_cons]
            omega
        | child => exact absurd rfl (child_acts pty _ (mem_of_tails (h.child hproc).ahead)).1

/-- The run lemma: a run is no longer than the steps left at its start. -/
theorem left_run {runners : List Runner} (hrun : Run (SpawnStep pty out) w runners w')
    (h : Sane pty w) : runners.length + w'.left pty ≤ w.left pty := by
  induction hrun with
  | nil w => simp
  | cons hstep _ ih =>
      have hfirst := left_step h hstep
      have hrest := ih (sane_step h hstep)
      rw [List.length_cons]
      omega

/-- A process that will touch a pipe is not blocked. -/
theorem runs_of_touches (pty : Bool) (out : Outcomes) {role : Role} {todo : List Act}
    {holds : Pipe → Bool} {pipe : Pipe}
    (hproc : w.procs role = .running todo holds) (htouches : touches pipe todo = true) :
    ∃ w', SpawnStep pty out w (.proc role) w' := by
  cases todo with
  | nil => exact nomatch htouches
  | cons a rest =>
      cases a with
      | wait | serve => exact nomatch htouches
      | fork =>
          cases hfork : out.fails .serviceFork with
          | true => exact ⟨_, proc_step pty out hproc (if_pos hfork)⟩
          | false => exact ⟨_, proc_step pty out hproc (if_neg (by rw [hfork]; exact Bool.false_ne_true))⟩
      | send p =>
          cases hsend : out.fails (sendCall p) with
          | true => exact ⟨_, proc_step pty out hproc (if_pos hsend)⟩
          | false => exact ⟨_, proc_step pty out hproc (if_neg (by rw [hsend]; exact Bool.false_ne_true))⟩
      | drop _ | call _ | exec | exit => exact ⟨_, proc_step pty out hproc rfl⟩

/-- A state that no step leaves has the parent returned, unless it is stuck. -/
theorem returned_of_halted (hstuck : ¬Stuck w)
    (hhalted : ∀ runner w', ¬SpawnStep pty out w runner w') :
    ∃ result, w.parent = .returned result := by
  have hread : ∀ pipe, (w.parent = .readingErr ∧ pipe = .err) ∨ (w.parent = .readingPid ∧ pipe = .pid) →
      w.written pipe = [] → w.isOpen pipe = true → False := by
    intro pipe hat hempty hopen
    refine hstuck ⟨pipe, ⟨hat, hempty, hopen⟩, fun role hattends => ?_⟩
    obtain ⟨todo, holds, hproc, -, htouches⟩ := hattends
    obtain ⟨w', hstep⟩ := runs_of_touches pty out hproc htouches
    exact hhalted _ w' hstep
  have hparent : ∀ w', stepParent pty out w ≠ some w' := fun w' => hhalted .parent w'
  rw [stepParent] at hparent
  cases hat : w.parent with
  | forking =>
      rw [hat] at hparent
      by_cases hfork : out.fails .firstFork = true
      · exact absurd (if_pos hfork) (hparent _)
      · exact absurd (if_neg hfork) (hparent _)
  | droppingErr => rw [hat] at hparent; exact absurd rfl (hparent _)
  | droppingSync => rw [hat] at hparent; exact absurd rfl (hparent _)
  | readingErr =>
      rw [hat] at hparent
      cases hwritten : w.written .err with
      | cons errno rest => rw [hwritten] at hparent; exact absurd rfl (hparent _)
      | nil =>
          rw [hwritten] at hparent
          by_cases hopen : w.isOpen .err = true
          · exact (hread .err (.inl ⟨hat, rfl⟩) hwritten hopen).elim
          · exact absurd (if_neg hopen) (hparent _)
  | readingPid =>
      rw [hat] at hparent
      cases hwritten : w.written .pid with
      | cons pid rest => rw [hwritten] at hparent; exact absurd rfl (hparent _)
      | nil =>
          rw [hwritten] at hparent
          by_cases hopen : w.isOpen .pid = true
          · exact (hread .pid (.inr ⟨hat, rfl⟩) hwritten hopen).elim
          · exact absurd (if_neg hopen) (hparent _)
  | returned result => exact ⟨result, rfl⟩

end Ending

/-- `spawn_service` returns: no reachable state is stuck, no run goes on for
    ever, and one that can go no further has the parent returned. -/
structure Returns (pty : Bool) (out : Outcomes) : Prop where
  unstuck : ∀ {runners w}, Run (SpawnStep pty out) start runners w → ¬Stuck w
  finite : ∀ {runners w}, Run (SpawnStep pty out) start runners w →
    runners.length ≤ start.left pty
  returned : ∀ {runners w}, Run (SpawnStep pty out) start runners w →
    (∀ runner w', ¬SpawnStep pty out w runner w') → ∃ result, w.parent = .returned result

/-- **A SPAWN RETURNS** exactly when the helper gets to write the pid or the
    service process to write its error. -/
theorem spawn_returns_iff (pty : Bool) (out : Outcomes) : Returns pty out ↔ Reports pty out := by
  constructor
  · intro h
    by_contra hsilent
    obtain ⟨runners, w, hrun, hstuck⟩ := exists_stuck hsilent
    exact h.unstuck hrun hstuck
  · intro hreports
    refine ⟨not_stuck hreports, fun hrun => ?_, fun hrun hhalted => ?_⟩
    · have hleft := left_run hrun (sane_start pty)
      omega
    · exact returned_of_halted (not_stuck hreports hrun) hhalted

/-- A second fork that fails leaves the parent reading the pid pipe. -/
theorem failed_fork_blocks_parent :
    ∃ w, Run (SpawnStep false ⟨fun c => c = .serviceFork, 2, 3, 0⟩) start
        [.parent, .proc .helper, .proc .helper, .proc .helper, .proc .helper, .proc .helper,
          .proc .helper, .parent, .parent, .parent] w
      ∧ w.parent = .readingPid ∧ Stuck w := by
  refine ⟨_, .cons rfl (.cons rfl (.cons rfl (.cons rfl (.cons rfl (.cons rfl (.cons rfl (.cons rfl
    (.cons rfl (.cons rfl (.nil _)))))))))), rfl, .pid, ⟨.inr ⟨rfl, rfl⟩, rfl, rfl⟩, ?_⟩
  rintro (_ | _) ⟨todo, holds, hproc, -⟩
  · exact nomatch hproc
  · exact nomatch hproc

end BeamSpawnPipes
