import BeamInit.SpawnSteps
import BeamInit.Service
import Mathlib.Data.Finset.Union

/-! # The context of a service — what its process is when it execs

    Between the fork and `execvp` the processes of a spawn change what the kernel
    keeps for them: session and process group, controlling terminal, signal
    mask, credentials, standard streams and limits.  A fork copies all of it.  So
    what a process is at any point is what the calls it has got through so far
    have made of what beam-init is. -/

namespace BeamSpawnContext

open BeamOs BeamService BeamSpawnPipes Runs

/-! ## What the kernel keeps for a process -/

def SIGTTOU : Int := 22

structure Rlimit where
  cur : Nat
  max : Nat
deriving DecidableEq

/-- A terminal, with its owner. -/
structure Tty where
  uid : Nat
  gid : Nat
deriving DecidableEq

/-- Where a standard stream goes; `inherited` is beam-init's own. -/
inductive Stdio where
  | inherited
  | logPipe
  | ptyClient
deriving DecidableEq

structure Context where
  pid : Int
  pgid : Int
  sid : Int
  /-- The controlling terminal of the session. -/
  tty : Option Tty
  sigmask : Finset Int
  /-- The monitor's variable `old_sigset`. -/
  oldSigset : Finset Int
  uid : Nat
  gid : Nat
  groups : List Nat
  stdin : Stdio
  stdout : Stdio
  stderr : Stdio
  nofile : Rlimit
  /-- Every descriptor from 3 on is closed by `execvp`. -/
  cloexec : Bool
deriving DecidableEq

/-- What `spawn_service` is called with, and the group the kernel gives a new PTY. -/
structure Request where
  oldSigmask : Finset Int
  credentials : Credentials
  ttyGid : Nat
deriving DecidableEq

/-- `Credentials::set_creds`: `setgroups`, `setgid` and `setuid`. -/
def setCreds (credentials : Credentials) (c : Context) : Context :=
  let c := { c with groups := [] }
  let c := { c with gid := credentials.gid }
  { c with uid := credentials.uid }

/-- `PtyClient::make_tty`: opening the terminal makes it the controlling one of a
    session leader that has none; then its owner is set. -/
def makeTty (request : Request) (c : Context) : Context :=
  if c.sid = c.pid ∧ c.tty = none then
    { c with tty := some ⟨request.credentials.uid, request.ttyGid⟩ }
  else c

def block (signals : Finset Int) (c : Context) : Context :=
  { c with sigmask := c.sigmask ∪ signals }

/-- Where `set_stdioe` sends the output. -/
def sink (pty : Bool) : Stdio := if pty then .ptyClient else .logPipe

/-- What a call that succeeds makes of its process. -/
def Call.apply (request : Request) (pty : Bool) (c : Context) : Call → Context
  | .restoreSigmask => { c with sigmask := request.oldSigmask }
  | .setsid => { c with sid := c.pid, pgid := c.pid, tty := none }
  | .makeTty => makeTty request c
  | .dupStdin => { c with stdin := sink pty }
  | .dupStdout => { c with stdout := sink pty }
  | .dupStderr => { c with stderr := sink pty }
  | .blockSigchld => { block {SIGCHLD} c with oldSigset := c.sigmask }
  | .blockSigttou => block {SIGTTOU} c
  | .setMask => { c with sigmask := c.oldSigset }
  | .setpgid => { c with pgid := c.pid }
  | .setrlimit => { c with nofile := ⟨min c.nofile.max 1024, c.nofile.max⟩ }
  | .closeRange => { c with cloexec := true }
  | .setCreds => setCreds request.credentials c
  | .firstFork | .newSignalSet | .newSignalFd | .serviceFork | .writePid | .waitPgid | .newTtouSet
  | .getrlimit | .execvp | .lastOsError | .writeErrno => c

def Act.apply (request : Request) (pty : Bool) (c : Context) : Act → Context
  | .call k => Call.apply request pty c k
  | _ => c

/-- A process that has got through some acts. -/
def through (request : Request) (pty : Bool) (acts : List Act) (c : Context) : Context :=
  acts.foldl (Act.apply request pty) c

def forkOf (c : Context) (pid : Int) : Context := { c with pid }

/-! ## beam-init -/

/-- The signals of `signal_stream::init`. -/
def mainSignals : Finset Int := {SIGCHLD, SIGTERM, SIGINT}

/-- `main` up to its loop: the soft limit of open files is raised to the hard one,
    and the signals are blocked. -/
def startUp (boot : Context) : Context :=
  block mainSignals { boot with nofile := ⟨boot.nofile.max, boot.nofile.max⟩ }

/-- The old signal mask `signal_stream::init` returns is that of the start. -/
def requestFor (boot : Context) (credentials : Credentials) (ttyGid : Nat) : Request where
  oldSigmask := boot.sigmask
  credentials := credentials
  ttyGid := ttyGid

/-! ## A spawn with its contexts -/

structure Located where
  spawning : Spawning
  contexts : Role → Context

section Steps

variable (pty : Bool) (out : Outcomes) (request : Request) (beamInit : Context)

/-- What a step makes of the contexts. -/
def contextsAfter (w : Located) : Runner → Role → Context
  | .parent =>
      if w.spawning.parent = .forking then
        Function.update w.contexts .helper (forkOf beamInit out.helperPid)
      else w.contexts
  | .proc role =>
      match w.spawning.procs role with
      | .running (.call k :: _) _ =>
          if out.fails k then w.contexts
          else Function.update w.contexts role (Call.apply request pty (w.contexts role) k)
      | .running (.fork :: _) _ =>
          if out.fails .serviceFork then w.contexts
          else Function.update w.contexts .child (forkOf (w.contexts role) out.servicePid)
      | _ => w.contexts

def LocatedStep (w : Located) (runner : Runner) (w' : Located) : Prop :=
  SpawnStep pty out w.spawning runner w'.spawning
    ∧ w'.contexts = contextsAfter pty out request beamInit w runner

/-- Before the first fork there is only beam-init. -/
def locatedStart : Located := ⟨BeamSpawnPipes.start, fun _ => beamInit⟩

end Steps

/-! ## One step of a process -/

section Steps

variable {pty : Bool} {out : Outcomes}

/-- The spawn after these runners' steps, where each of them can take its step. -/
def spawnAfter (pty : Bool) (out : Outcomes) (w : Spawning) : List Runner → Option Spawning
  | [] => some w
  | runner :: runners => (step pty out w runner).bind fun w' => spawnAfter pty out w' runners

/-- Every spawn can be told with its contexts. -/
theorem exists_located (request : Request) (beamInit : Context) {w : Located}
    {runners : List Runner} {spawning : Spawning}
    (h : spawnAfter pty out w.spawning runners = some spawning) :
    ∃ w', Run (LocatedStep pty out request beamInit) w runners w' ∧ w'.spawning = spawning := by
  induction runners generalizing w with
  | nil => exact ⟨w, .nil w, Option.some.inj h⟩
  | cons runner runners ih =>
      obtain ⟨next, hstep, hnext⟩ := Option.bind_eq_some_iff.mp h
      let located : Located := ⟨next, contextsAfter pty out request beamInit w runner⟩
      have hlocated : LocatedStep pty out request beamInit w runner located := ⟨hstep, rfl⟩
      obtain ⟨w', hrun, hspawning⟩ := ih (w := located) hnext
      exact ⟨w', .cons hlocated hrun, hspawning⟩

/-- What a process that runs is after its next act: it goes on, exits, or execs. -/
inductive Became (out : Outcomes) (a : Act) (rest : List Act) : ProcState → Prop where
  | went {holds : Pipe → Bool} : (∀ k, a = .call k → out.fails k = false) →
      (a = .exec → out.fails .execvp = true) →
      Became out a rest (.running rest holds)
  | exited : Became out a rest .exited
  | execed : a = .exec → Became out a rest .execed

/-- An act that calls nothing and executes nothing can only go on. -/
theorem Became.plain {a : Act} {rest : List Act} {holds : Pipe → Bool}
    (hcall : ∀ k, a ≠ .call k) (hexec : a ≠ .exec) :
    Became out a rest (.running rest holds) :=
  .went (fun k ha => absurd ha (hcall k)) fun ha => absurd ha hexec

/-- A process steps on its own, and forks at most the service process. -/
theorem stepProc_became {w w' : Spawning} {role : Role} (h : stepProc pty out w role = some w')
    (hforks : ∀ rest holds, w.procs role = .running (.fork :: rest) holds → role = .helper) :
    ∃ a rest holds, w.procs role = .running (a :: rest) holds
      ∧ Became out a rest (w'.procs role)
      ∧ ∀ other, other ≠ role →
        (w'.procs other = w.procs other ∧ (a = .fork → out.fails .serviceFork = true))
          ∨ (a = .fork ∧ out.fails .serviceFork = false
            ∧ w'.procs other = .running (childProgram pty) holds) := by
  rw [stepProc] at h
  split at h
  case h_2 => cases h
  case h_1 a rest holds hproc =>
    refine ⟨a, rest, holds, hproc, ?_⟩
    -- the acts that change the acting process only
    have halone : ∀ {proc : ProcState}, Became out a rest proc →
        (a = .fork → out.fails .serviceFork = true) → w' = w.setProc role proc →
        Became out a rest (w'.procs role) ∧ ∀ other, other ≠ role →
          (w'.procs other = w.procs other ∧ (a = .fork → out.fails .serviceFork = true))
            ∨ (a = .fork ∧ out.fails .serviceFork = false
              ∧ w'.procs other = .running (childProgram pty) holds) := by
      rintro proc hproc' hfail rfl
      rw [setProc_self]
      exact ⟨hproc', fun other hne => .inl ⟨setProc_other hne, hfail⟩⟩
    cases a with
    | drop pipe =>
        cases h
        exact halone (.plain (by simp) (by simp)) (by simp) rfl
    | call k =>
        cases h
        refine halone ?_ (by simp) rfl
        by_cases hfail : out.fails k = true
        · rw [if_pos hfail]
          exact .exited
        · rw [if_neg hfail]
          refine .went (fun k' hk => ?_) (by simp)
          cases hk
          exact Bool.eq_false_iff.mpr hfail
    | fork =>
        obtain rfl := hforks rest holds hproc
        dsimp only [act] at h
        by_cases hfail : out.fails .serviceFork = true
        · rw [if_pos hfail] at h
          cases h
          exact halone .exited (fun _ => hfail) rfl
        · rw [if_neg hfail] at h
          cases h
          have hne : Role.helper ≠ .child := by decide
          rw [setProc_other hne, setProc_self]
          refine ⟨.plain (by simp) (by simp), fun other hother =>
            .inr ⟨rfl, Bool.eq_false_iff.mpr hfail, ?_⟩⟩
          cases other with
          | helper => exact absurd rfl hother
          | child => exact setProc_self _ _ _
    | send pipe =>
        dsimp only [act] at h
        by_cases hfail : out.fails (sendCall pipe) = true
        · rw [if_pos hfail] at h
          cases h
          exact halone .exited (by simp) rfl
        · rw [if_neg hfail] at h
          cases h
          rw [write_procs, setProc_self]
          exact ⟨.plain (by simp) (by simp), fun other hother =>
            .inl ⟨setProc_other hother, by simp⟩⟩
    | wait =>
        dsimp only [act] at h
        split at h
        · cases h
        · cases h
          refine halone ?_ (by simp) rfl
          by_cases hfail : out.fails .waitPgid = true
          · rw [if_pos hfail]
            exact .exited
          · rw [if_neg hfail]
            exact .plain (by simp) (by simp)
    | exec =>
        cases h
        refine halone ?_ (by simp) rfl
        by_cases hfail : out.fails .execvp = true
        · rw [if_pos hfail]
          exact .went (by simp) fun _ => hfail
        · rw [if_neg hfail]
          exact .execed rfl
    | exit =>
        cases h
        exact halone .exited (by simp) rfl
    | serve => cases h

end Steps

/-! ## What the contexts are -/

section Contexts

variable {pty : Bool} {out : Outcomes} {request : Request} {beamInit : Context}

/-- The helper before its first act. -/
def helperStart (out : Outcomes) (beamInit : Context) : Context := forkOf beamInit out.helperPid

/-- The service process before its first act: a copy of the helper after its set-up. -/
def childStart (pty : Bool) (out : Outcomes) (request : Request) (beamInit : Context) : Context :=
  forkOf (through request pty (setup pty) (helperStart out beamInit)) out.servicePid

/-- **The invariant**: a process that runs has got through its acts so far, and the
    context is what they made of the one it started with. -/
structure Placed (pty : Bool) (out : Outcomes) (request : Request) (beamInit : Context)
    (w : Located) : Prop where
  sane : Sane pty w.spawning
  helper : ∀ {todo holds}, w.spawning.procs .helper = .running todo holds →
    ∃ before, before ++ todo = helperProgram pty
      ∧ w.contexts .helper = through request pty before (helperStart out beamInit)
  child : ∀ {todo holds}, w.spawning.procs .child = .running todo holds →
    ∃ before, before ++ todo = childProgram pty
      ∧ w.contexts .child = through request pty before (childStart pty out request beamInit)
  execed : w.spawning.procs .child = .execed →
    w.contexts .child = through request pty (childSetup pty) (childStart pty out request beamInit)
  helper_execed : w.spawning.procs .helper ≠ .execed

/-- An act that occurs once in a program says what came before it. -/
theorem before_eq {program before rest pre post : List Act} {a : Act}
    (h : before ++ a :: rest = program) (hprogram : program = pre ++ a :: post)
    (hpre : a ∉ pre) (hpost : a ∉ post) : before = pre := by
  rw [hprogram] at h
  rcases List.append_eq_append_iff.mp h with ⟨mid, hmid, hrest⟩ | ⟨mid, hmid, hrest⟩
  · cases mid with
    | nil => rw [hmid, List.append_nil]
    | cons b mid =>
        rw [List.cons_append] at hrest
        obtain ⟨rfl, -⟩ := List.cons.inj hrest
        exact absurd (hmid ▸ List.mem_append_right _ List.mem_cons_self) hpre
  · cases mid with
    | nil => rw [hmid, List.append_nil]
    | cons b mid =>
        rw [List.cons_append] at hrest
        obtain ⟨rfl, hpost'⟩ := List.cons.inj hrest
        exact absurd (hpost' ▸ List.mem_append_right _ List.mem_cons_self) hpost

/-- The helper forks when it has got through its setup. -/
theorem before_fork {before rest : List Act} (h : before ++ .fork :: rest = helperProgram pty) :
    before = setup pty :=
  before_eq h rfl (by cases pty <;> decide) (by cases pty <;> decide)

/-- The service execs when it has got through its own. -/
theorem before_exec {before rest : List Act} (h : before ++ .exec :: rest = childProgram pty) :
    before = childSetup pty :=
  before_eq h rfl (by cases pty <;> decide) (by cases pty <;> decide)

/-- The last act changes the context last. -/
theorem through_snoc (request : Request) (pty : Bool) (before : List Act) (a : Act) (c : Context) :
    through request pty (before ++ [a]) c
      = Act.apply request pty (through request pty before c) a := by
  rw [through, List.foldl_append]
  rfl

/-- The context of the acting process follows its program. -/
theorem context_went {w : Located} {role : Role} {a : Act} {rest : List Act} {holds : Pipe → Bool}
    (hproc : w.spawning.procs role = .running (a :: rest) holds)
    (hok : ∀ k, a = .call k → out.fails k = false) (hfork : a = .fork → role ≠ .child) :
    contextsAfter pty out request beamInit w (.proc role) role
      = Act.apply request pty (w.contexts role) a := by
  rw [contextsAfter]
  rw [hproc]
  cases a with
  | call k =>
      dsimp only
      rw [hok k rfl]
      exact Function.update_self _ _ _
  | fork =>
      dsimp only
      by_cases hfail : out.fails .serviceFork = true
      · rw [if_pos hfail]
        rfl
      · rw [if_neg hfail]
        exact Function.update_of_ne (hfork rfl) _ _
  | _ => rfl

/-- The context of the other process is left alone, unless it is forked. -/
theorem context_other {w : Located} {role other : Role} {a : Act} {rest : List Act}
    {holds : Pipe → Bool} (hproc : w.spawning.procs role = .running (a :: rest) holds)
    (hne : other ≠ role) (hfork : a = .fork → out.fails .serviceFork = true) :
    contextsAfter pty out request beamInit w (.proc role) other = w.contexts other := by
  rw [contextsAfter]
  rw [hproc]
  cases a with
  | call k =>
      dsimp only
      by_cases hfail : out.fails k = true
      · rw [if_pos hfail]
      · rw [if_neg hfail]
        exact Function.update_of_ne hne _ _
  | fork =>
      dsimp only
      rw [if_pos (hfork rfl)]
  | _ => rfl

/-- The forked process starts from the context of the one that forks it. -/
theorem context_forked {w : Located} {role : Role} {rest : List Act} {holds : Pipe → Bool}
    (hproc : w.spawning.procs role = .running (.fork :: rest) holds)
    (hok : out.fails .serviceFork = false) :
    contextsAfter pty out request beamInit w (.proc role) .child
      = forkOf (w.contexts role) out.servicePid := by
  rw [contextsAfter]
  rw [hproc]
  dsimp only
  rw [hok, if_neg Bool.false_ne_true]
  exact Function.update_self Role.child _ _

/-- What a process has got through, one act later. -/
theorem went_on {start c c' : Context} {program before rest : List Act} {a : Act}
    (hprogram : before ++ a :: rest = program) (hc : c = through request pty before start)
    (hc' : c' = Act.apply request pty c a) :
    ∃ before', before' ++ rest = program ∧ c' = through request pty before' start := by
  refine ⟨before ++ [a], ?_, ?_⟩
  · rw [List.append_assoc]
    exact hprogram
  · rw [through_snoc, ← hc]
    exact hc'

/-- A step that leaves the processes and their contexts alone. -/
theorem Placed.of_same {w w' : Located} (h : Placed pty out request beamInit w)
    (hsane : Sane pty w'.spawning) (hprocs : w'.spawning.procs = w.spawning.procs)
    (hcontexts : w'.contexts = w.contexts) : Placed pty out request beamInit w' where
  sane := hsane
  helper hrun := by
    rw [hcontexts]
    exact h.helper (hprocs ▸ hrun)
  child hrun := by
    rw [hcontexts]
    exact h.child (hprocs ▸ hrun)
  execed hexec := by
    rw [hcontexts]
    exact h.execed (hprocs ▸ hexec)
  helper_execed hexec := h.helper_execed (hprocs ▸ hexec)

/-- beam-init keeps the invariant. -/
theorem placed_parent {w w' : Located} (h : Placed pty out request beamInit w)
    (hstep : LocatedStep pty out request beamInit w .parent w') :
    Placed pty out request beamInit w' := by
  obtain ⟨hspawn, hcontexts⟩ := hstep
  have hsane := sane_step h.sane hspawn
  -- past the first fork the parent has nothing to do with the contexts
  have hkept : w.spawning.parent ≠ .forking → w'.spawning.procs = w.spawning.procs →
      Placed pty out request beamInit w' := by
    intro hparent hprocs
    refine h.of_same hsane hprocs ?_
    rw [hcontexts, contextsAfter]
    exact if_neg hparent
  generalize hafter : w'.spawning = after at hspawn hsane hkept
  cases stepParent_cases hspawn with
  | failed hparent _ =>
      obtain ⟨-, hhelper, hchild⟩ := h.sane.forking hparent
      refine ⟨hafter ▸ hsane, fun hrun => ?_, fun hrun => ?_, fun hexec => ?_, fun hexec => ?_⟩
      · rw [hafter] at hrun
        exact nomatch hhelper.symm.trans hrun
      · rw [hafter] at hrun
        exact nomatch hchild.symm.trans hrun
      · rw [hafter] at hexec
        exact nomatch hchild.symm.trans hexec
      · rw [hafter] at hexec
        exact nomatch hhelper.symm.trans hexec
  | forked hparent _ =>
      obtain ⟨-, -, hchild⟩ := h.sane.forking hparent
      have hne : Role.child ≠ .helper := nofun
      refine ⟨hafter ▸ hsane, fun hrun => ?_, fun hrun => ?_, fun hexec => ?_, fun hexec => ?_⟩
      · rw [hafter, setProc_self] at hrun
        cases hrun
        refine ⟨[], rfl, ?_⟩
        rw [hcontexts, contextsAfter]
        rw [if_pos hparent, Function.update_self]
        rfl
      · rw [hafter, setProc_other hne] at hrun
        exact nomatch hchild.symm.trans hrun
      · rw [hafter, setProc_other hne] at hexec
        exact nomatch hchild.symm.trans hexec
      · rw [hafter, setProc_self] at hexec
        exact nomatch hexec
  | droppedErr hparent | droppedSync hparent | endOfErr hparent _ _ | readErr hparent _
    | readPid hparent => exact hkept (by rw [hparent]; exact nofun) rfl

/-- The helper keeps it. -/
theorem placed_helper {w w' : Located} (h : Placed pty out request beamInit w)
    (hstep : LocatedStep pty out request beamInit w (.proc .helper) w') :
    Placed pty out request beamInit w' := by
  obtain ⟨hspawn, hcontexts⟩ := hstep
  obtain ⟨a, rest, holds, hproc, hbecame, hothers⟩ := stepProc_became hspawn fun _ _ _ => rfl
  obtain ⟨before, hprogram, hcontext⟩ := h.helper hproc
  have hacts := helper_acts pty a (hprogram ▸ List.mem_append_right _ List.mem_cons_self)
  have hne : Role.child ≠ .helper := nofun
  refine ⟨sane_step h.sane hspawn, fun hrun => ?_, fun hrun => ?_, fun hexec => ?_, fun hexec => ?_⟩
  · rw [hrun] at hbecame
    cases hbecame with
    | went hok _ =>
        refine went_on hprogram hcontext ?_
        rw [hcontexts]
        exact context_went hproc hok fun _ => nofun
  · rcases hothers .child hne with ⟨hsame, hfail⟩ | ⟨rfl, hok, hforked⟩
    · rw [hcontexts, context_other hproc hne hfail]
      exact h.child (hsame ▸ hrun)
    · rw [hforked] at hrun
      cases hrun
      refine ⟨[], rfl, ?_⟩
      rw [hcontexts, context_forked hproc hok, hcontext, before_fork hprogram]
      rfl
  · rcases hothers .child hne with ⟨hsame, hfail⟩ | ⟨-, -, hforked⟩
    · rw [hcontexts, context_other hproc hne hfail]
      exact h.execed (hsame ▸ hexec)
    · exact nomatch hforked.symm.trans hexec
  · rw [hexec] at hbecame
    cases hbecame with
    | execed ha => exact hacts.1 ha

/-- The service keeps it. -/
theorem placed_child {w w' : Located} (h : Placed pty out request beamInit w)
    (hstep : LocatedStep pty out request beamInit w (.proc .child) w') :
    Placed pty out request beamInit w' := by
  obtain ⟨hspawn, hcontexts⟩ := hstep
  have hnofork : ∀ {a rest holds}, w.spawning.procs .child = .running (a :: rest) holds →
      a ≠ .fork := by
    intro a rest holds hproc
    obtain ⟨before, hprogram, -⟩ := h.child hproc
    exact (child_acts pty a (hprogram ▸ List.mem_append_right _ List.mem_cons_self)).1
  obtain ⟨a, rest, holds, hproc, hbecame, hothers⟩ :=
    stepProc_became hspawn fun _ _ hproc => absurd rfl (hnofork hproc)
  obtain ⟨before, hprogram, hcontext⟩ := h.child hproc
  have hne : Role.helper ≠ .child := nofun
  have hfork : a = .fork → out.fails .serviceFork = true := fun ha => absurd ha (hnofork hproc)
  have hhelper : w'.spawning.procs .helper = w.spawning.procs .helper :=
    (hothers .helper hne).elim And.left fun hforked => absurd hforked.1 (hnofork hproc)
  refine ⟨sane_step h.sane hspawn, fun hrun => ?_, fun hrun => ?_, fun hexec => ?_, fun hexec => ?_⟩
  · rw [hcontexts, context_other hproc hne hfork]
    exact h.helper (hhelper ▸ hrun)
  · rw [hrun] at hbecame
    cases hbecame with
    | went hok _ =>
        refine went_on hprogram hcontext ?_
        rw [hcontexts]
        exact context_went hproc hok fun ha => absurd ha (hnofork hproc)
  · rw [hexec] at hbecame
    cases hbecame with
    | execed ha =>
        subst ha
        rw [hcontexts, context_went hproc nofun nofun, hcontext, before_exec hprogram]
        rfl
  · exact h.helper_execed (hhelper ▸ hexec)

/-- **Every step** keeps the invariant. -/
theorem placed_step {w w' : Located} {runner : Runner} (h : Placed pty out request beamInit w)
    (hstep : LocatedStep pty out request beamInit w runner w') :
    Placed pty out request beamInit w' := by
  cases runner with
  | parent => exact placed_parent h hstep
  | proc role =>
      cases role with
      | helper => exact placed_helper h hstep
      | child => exact placed_child h hstep

/-- The invariant holds in every run of a spawn. -/
theorem placed_run {w : Located} {runners : List Runner}
    (hrun : Run (LocatedStep pty out request beamInit) (locatedStart beamInit) runners w) :
    Placed pty out request beamInit w :=
  hrun.invariant (I := Placed pty out request beamInit) placed_step
    ⟨sane_start pty, nofun, nofun, nofun, nofun⟩

end Contexts

/-! ## The context of a service -/

/-- What the program of a service finds: the mask beam-init was started with, its
    own process group in the helper's session, its owner's ids and no other group,
    its output in the log or everything on the PTY, and no descriptor but these. -/
def serviceContext (boot : Context) (pty : Bool) (out : Outcomes) (credentials : Credentials)
    (ttyGid : Nat) : Context where
  pid := out.servicePid
  pgid := out.servicePid
  sid := out.helperPid
  tty := if pty then some ⟨credentials.uid, ttyGid⟩ else none
  sigmask := boot.sigmask
  oldSigset := if pty then boot.sigmask else boot.oldSigset
  uid := credentials.uid
  gid := credentials.gid
  groups := []
  stdin := if pty then .ptyClient else boot.stdin
  stdout := if pty then .ptyClient else .logPipe
  stderr := if pty then .ptyClient else .logPipe
  nofile := ⟨min boot.nofile.max 1024, boot.nofile.max⟩
  cloexec := true

/-- The helper of a service with a PTY once it is set up: it leads a session whose
    controlling terminal is the PTY. -/
def helperReady (request : Request) (c : Context) : Context :=
  { c with
    pgid := c.pid
    sid := c.pid
    tty := some ⟨request.credentials.uid, request.ttyGid⟩
    sigmask := request.oldSigmask ∪ {SIGCHLD}
    oldSigset := request.oldSigmask
    stdin := .ptyClient
    stdout := .ptyClient
    stderr := .ptyClient }

/-- What the setup of the helper makes of its context. -/
theorem through_setup (request : Request) (c : Context) :
    through request true (setup true) c = helperReady request c := by
  simp [through, setup, Act.apply, Call.apply, makeTty, block, sink, helperReady]

/-- What the setup of the service makes of its context. -/
theorem through_childSetup (boot : Context) (pty : Bool) (out : Outcomes)
    (credentials : Credentials) (ttyGid : Nat) :
    through (requestFor boot credentials ttyGid) pty (childSetup pty)
        (childStart pty out (requestFor boot credentials ttyGid) (startUp boot))
      = serviceContext boot pty out credentials ttyGid := by
  cases pty with
  | false => rfl
  | true =>
      rw [childStart]
      rw [through_setup]
      rfl

/-- **HEADLINE.** Whatever the calls of a spawn answer and however its processes
    interleave, the program of a service is started in this context or not at all. -/
theorem service_context {boot : Context} {pty : Bool} {out : Outcomes} {credentials : Credentials}
    {ttyGid : Nat} {w : Located} {runners : List Runner}
    (hrun : Run (LocatedStep pty out (requestFor boot credentials ttyGid) (startUp boot))
      (locatedStart (startUp boot)) runners w)
    (hexec : w.spawning.procs .child = .execed) :
    w.contexts .child = serviceContext boot pty out credentials ttyGid := by
  rw [(placed_run hrun).execed hexec]
  exact through_childSetup boot pty out credentials ttyGid

/-- beam-init as the first process of a container. -/
def containerBoot : Context where
  pid := 1
  pgid := 1
  sid := 1
  tty := none
  sigmask := {10}
  oldSigset := ∅
  uid := 0
  gid := 0
  groups := [0]
  stdin := .inherited
  stdout := .inherited
  stderr := .inherited
  nofile := ⟨1024, 524288⟩
  cloexec := false

theorem service_context_container :
    ∃ w : Located, w.spawning.procs .child = .execed
      ∧ w.contexts .child
        = serviceContext containerBoot false ⟨fun _ => false, 2, 3, 0⟩ ⟨1000, 1000⟩ 5 := by
  have hafter : ∃ w, spawnAfter false ⟨fun _ => false, 2, 3, 0⟩ start
      (.parent :: (List.replicate 6 (.proc .helper) ++ List.replicate 6 (.proc .child))) = some w
      ∧ w.procs .child = .execed := ⟨_, rfl, rfl⟩
  obtain ⟨spawning, hafter, hexec⟩ := hafter
  obtain ⟨w, hrun, rfl⟩ := exists_located (requestFor containerBoot ⟨1000, 1000⟩ 5)
    (startUp containerBoot) (w := locatedStart (startUp containerBoot)) hafter
  exact ⟨w, hexec, service_context hrun hexec⟩

end BeamSpawnContext
