import BeamInit.MainLoop

/-! # The end of a process — what a parent of beam-init gets to see

    A process ends with an exit code or by a signal, and its parent reads which
    from the wait status.  The loop passes the end of the bootstrap service on
    by ending beam-init in the same way: with `process::exit`, or by raising the
    signal and, should that return, by `process::abort`.  Whether a raised signal
    ends the process depends on what beam-init was started with. -/

namespace BeamProcessEnd

open BeamOs BeamMainLoop

inductive Ending where
  | code (code : Int)
  | signal (signal : Int)
deriving DecidableEq

/-- How the process ended that a wait status is about, if it ended. -/
def ending (status : StdExitStatus) : Option Ending :=
  match status.code with
  | some code => some (.code code)
  | none => status.signal.map .signal

/-! ## Signals that a process raises -/

def SIGABRT : Int := 6
def SIGBUS : Int := 7
def SIGSEGV : Int := 11
def SIGPIPE : Int := 13
def SIGTSTP : Int := 20
def SIGTTIN : Int := 21
def SIGTTOU : Int := 22
def SIGURG : Int := 23
def SIGWINCH : Int := 28

/-- What beam-init was started with, as far as its end depends on it. -/
structure ProcessContext where
  /-- It is process 1: the default actions of signals from within do not apply. -/
  isInit : Bool
  /-- The mask that `signal_stream::init` returns as `old_sigmask`. -/
  oldSigmask : Int → Bool
  /-- The signals ignored by the parent, which stay ignored across exec. -/
  ignored : Int → Bool
  /-- The real-time signals that `raise` refuses, as the C library uses them. -/
  reserved : Int → Bool
  /-- The signal of the instruction that `abort` ends with after a SIGABRT that
      did nothing: SIGSEGV or SIGTRAP, by the architecture. -/
  trap : Int

inductive Disposition where
  | default
  | ignored
  | handled
deriving DecidableEq

/-- Rust's runtime ignores SIGPIPE and handles SIGSEGV and SIGBUS, to report a
    stack overflow; the handler returns from a signal that was raised. -/
def disposition (ctx : ProcessContext) (signal : Int) : Disposition :=
  if ctx.ignored signal then .ignored
  else if signal = SIGPIPE then .ignored
  else if signal = SIGSEGV ∨ signal = SIGBUS then .handled
  else .default

/-- The signals that `main` blocks, on top of the mask it was started with. -/
def blocked (ctx : ProcessContext) (signal : Int) : Bool :=
  ctx.oldSigmask signal || [SIGCHLD, SIGTERM, SIGINT].contains signal

/-- The signals whose default action ignores, stops or continues. -/
def survivable : List Int :=
  [SIGCHLD, SIGCONT, SIGSTOP, SIGTSTP, SIGTTIN, SIGTTOU, SIGURG, SIGWINCH]

/-- The default action of the signal is to end the process. -/
def terminates (signal : Int) : Bool :=
  decide (1 ≤ signal ∧ signal ≤ 64) && !survivable.contains signal

/-- `libc::raise`: the end of the process, unless the call returns. -/
def raise (ctx : ProcessContext) (signal : Int) : Option Ending :=
  if ctx.isInit then none
  else if signal = SIGKILL then some (.signal signal)
  else if blocked ctx signal then none
  else
    match disposition ctx signal with
    | .ignored | .handled => none
    | .default =>
        if terminates signal && !ctx.reserved signal then some (.signal signal) else none

/-- The signal of `process::abort`, which unblocks and resets SIGABRT first. -/
def abortSignal (ctx : ProcessContext) : Int := if ctx.isInit then ctx.trap else SIGABRT

/-- `exit_with_signal`. -/
def exitWithSignal (ctx : ProcessContext) (signal : Int) : Ending :=
  match raise ctx signal with
  | some ending => ending
  | none => .signal (abortSignal ctx)

/-- The end of beam-init after an iteration of the loop, if it ends there. -/
def processEnd (ctx : ProcessContext) : LoopExit → Option Ending
  | .next => none
  | .leave => some (.code 0)
  | .exit code => some (.code (code % 256))
  | .exitWithSignal signal => some (exitWithSignal ctx signal)

/-! ## Which signals are passed on -/

/-- The signal ends a process in this context when the process raises it. -/
def Deadly (ctx : ProcessContext) (signal : Int) : Prop :=
  ctx.isInit = false
    ∧ (signal = SIGKILL
      ∨ blocked ctx signal = false ∧ disposition ctx signal = .default
        ∧ terminates signal = true ∧ ctx.reserved signal = false)

/-- Raised it ends the process, or it is the one that aborting ends it with. -/
def PassedOn (ctx : ProcessContext) (signal : Int) : Prop :=
  Deadly ctx signal ∨ signal = abortSignal ctx

instance (ctx : ProcessContext) (signal : Int) : Decidable (Deadly ctx signal) :=
  inferInstanceAs (Decidable (_ ∧ _))

instance (ctx : ProcessContext) (signal : Int) : Decidable (PassedOn ctx signal) :=
  inferInstanceAs (Decidable (_ ∨ _))

theorem raise_of_deadly {ctx : ProcessContext} {signal : Int} (h : Deadly ctx signal) :
    raise ctx signal = some (.signal signal) := by
  obtain ⟨hinit, hkill | ⟨hblocked, hdefault, hterm, hreserved⟩⟩ := h
  · rw [raise, hinit, if_neg Bool.false_ne_true, if_pos hkill]
  · rw [raise, hinit, hblocked, hdefault, hterm, hreserved, if_neg Bool.false_ne_true,
      if_neg Bool.false_ne_true]
    exact ite_self _

/-- A signal that does not end the process lets `raise` return. -/
theorem raise_of_not_deadly {ctx : ProcessContext} {signal : Int} (h : ¬ Deadly ctx signal) :
    raise ctx signal = none := by
  rw [raise]
  split
  · rfl
  rename_i hinit
  have hinit : ctx.isInit = false := Bool.eq_false_of_not_eq_true hinit
  split
  · exact absurd ⟨hinit, Or.inl ‹_›⟩ h
  split
  · rfl
  rename_i hblocked
  split
  · rfl
  · rfl
  split
  · rename_i hdefault hboth
    rw [Bool.and_eq_true, Bool.not_eq_true'] at hboth
    exact absurd ⟨hinit, Or.inr ⟨Bool.eq_false_of_not_eq_true hblocked, hdefault, hboth.1, hboth.2⟩⟩ h
  · rfl

/-- **What `exit_with_signal` is for**: beam-init ends by the signal it was given
    exactly if that signal is passed on. -/
theorem exitWithSignal_eq_iff {ctx : ProcessContext} {signal : Int} :
    exitWithSignal ctx signal = .signal signal ↔ PassedOn ctx signal := by
  rw [exitWithSignal]
  by_cases h : Deadly ctx signal
  · rw [raise_of_deadly h]
    exact iff_of_true rfl (Or.inl h)
  · rw [raise_of_not_deadly h]
    constructor
    · intro heq
      exact Or.inr (Ending.signal.inj heq).symm
    · intro hpassed
      rw [hpassed.resolve_left h]

/-- An exit code survives `process::exit`. -/
theorem code_emod {status : StdExitStatus} {code : Int} (h : status.code = some code) :
    code % 256 = code := by
  unfold StdExitStatus.code at h
  split at h
  · cases h
    omega
  · cases h

/-- Started from a shell, with nothing blocked or ignored. -/
def shellContext : ProcessContext where
  isInit := false
  oldSigmask _ := false
  ignored _ := false
  reserved signal := signal == 32 || signal == 33
  trap := SIGSEGV

example : exitWithSignal shellContext SIGKILL = .signal SIGKILL := by decide

-- SIGTERM is blocked, so it stays pending
example : exitWithSignal shellContext SIGTERM = .signal SIGABRT := by decide

-- process 1 aborts with every signal
example : exitWithSignal { shellContext with isInit := true } SIGKILL = .signal SIGSEGV := by decide

end BeamProcessEnd
