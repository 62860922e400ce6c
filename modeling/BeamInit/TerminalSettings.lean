import BeamInit.Terminal
import Mathlib.Data.Finset.Basic

/-! # Terminal settings — what `terminal::manage` does to the user's terminal

    While attached, the user's terminal takes over flags of the PTY and is put in
    raw mode, and the signals of the terminal are blocked for a signalfd.  Both are
    undone by destructors, on every way out.  A step is one call of `manage`, which
    may fail, a signal of the terminal, or a change of settings on the other side of
    the PTY.  Signals that arrive while they are blocked are pending, and what is
    pending when the old mask is restored is delivered there and then. -/

namespace BeamTerminalSettings

open BeamTerminal Runs

/-! ## Flags -/

/-- `tcflag_t`. -/
abbrev Flags := BitVec 32

def IGNBRK : Flags := 0x1
def BRKINT : Flags := 0x2
def IGNPAR : Flags := 0x4
def PARMRK : Flags := 0x8
def INPCK : Flags := 0x10
def ISTRIP : Flags := 0x20
def INLCR : Flags := 0x40
def IGNCR : Flags := 0x80
def ICRNL : Flags := 0x100
def IUCLC : Flags := 0x200
def IXON : Flags := 0x400
def IXANY : Flags := 0x800
def IXOFF : Flags := 0x1000
def IMAXBEL : Flags := 0x2000
def IUTF8 : Flags := 0x4000

def OPOST : Flags := 0x1
def OLCUC : Flags := 0x2
def ONLCR : Flags := 0x4
def OCRNL : Flags := 0x8
def ONOCR : Flags := 0x10
def ONLRET : Flags := 0x20

def CSIZE : Flags := 0x30
def CS8 : Flags := 0x30
def PARENB : Flags := 0x100

def ISIG : Flags := 0x1
def ICANON : Flags := 0x2
def XCASE : Flags := 0x4
def ECHO : Flags := 0x8
def ECHOE : Flags := 0x10
def ECHOK : Flags := 0x20
def ECHONL : Flags := 0x40
def NOFLSH : Flags := 0x80
def TOSTOP : Flags := 0x100
def ECHOCTL : Flags := 0x200
def ECHOKE : Flags := 0x800
def PENDIN : Flags := 0x4000
def IEXTEN : Flags := 0x8000

def INPUT_FLAGS : Flags :=
  IGNPAR ||| PARMRK ||| INPCK ||| ISTRIP ||| INLCR ||| IGNCR ||| ICRNL ||| IUCLC ||| IXON ||| IXANY
    ||| IXOFF ||| IMAXBEL ||| IUTF8

def OUTPUT_FLAGS : Flags := OPOST ||| OLCUC ||| ONLCR ||| OCRNL ||| ONOCR ||| ONLRET

def LOCAL_FLAGS : Flags :=
  ICANON ||| XCASE ||| ECHO ||| ECHOE ||| ECHOK ||| ECHONL ||| NOFLSH ||| TOSTOP ||| IEXTEN
    ||| ECHOCTL ||| ECHOKE ||| PENDIN

/-- `termios`; of the control characters, the two that raw mode sets. -/
structure Termios where
  iflag : Flags
  oflag : Flags
  cflag : Flags
  lflag : Flags
  vmin : UInt8
  vtime : UInt8
deriving DecidableEq

/-- `cfmakeraw`. -/
def cfmakeraw (t : Termios) : Termios where
  iflag := t.iflag
    &&& ~~~(IGNBRK ||| BRKINT ||| PARMRK ||| ISTRIP ||| INLCR ||| IGNCR ||| ICRNL ||| IXON)
  oflag := t.oflag &&& ~~~OPOST
  cflag := (t.cflag &&& ~~~(CSIZE ||| PARENB)) ||| CS8
  lflag := t.lflag &&& ~~~(ECHO ||| ECHONL ||| ICANON ||| ISIG ||| IEXTEN)
  vmin := 1
  vtime := 0

/-- The settings `UserTerm::sync` computes from those of the two terminals. -/
def Termios.sync (dst src : Termios) : Termios :=
  let dst := { dst with
    iflag := dst.iflag &&& ~~~INPUT_FLAGS
    oflag := dst.oflag &&& ~~~OUTPUT_FLAGS
    lflag := dst.lflag &&& ~~~LOCAL_FLAGS }
  let dst := { dst with
    iflag := dst.iflag ||| (src.iflag &&& INPUT_FLAGS)
    oflag := dst.oflag ||| (src.oflag &&& OUTPUT_FLAGS)
    lflag := dst.lflag ||| (src.lflag &&& LOCAL_FLAGS) }
  let dst := cfmakeraw dst
  { dst with lflag := dst.lflag ||| ISIG }

/-- A mask that is copied again leaves nothing of the first copy. -/
theorem copied_again (d s t mask clear : Flags) :
    ((((d &&& ~~~mask) ||| (s &&& mask)) &&& ~~~clear) &&& ~~~mask ||| (t &&& mask)) &&& ~~~clear
      = ((d &&& ~~~mask) ||| (t &&& mask)) &&& ~~~clear := by
  ext i hi
  simp only [BitVec.getElem_and, BitVec.getElem_or, BitVec.getElem_not]
  cases mask[i] <;> cases clear[i] <;> simp

/-- Flags that are copied and set a second time are as if set once. -/
theorem copied_again_set (d s t mask clear set : Flags) :
    (((((d &&& ~~~mask) ||| (s &&& mask)) &&& ~~~clear ||| set) &&& ~~~mask ||| (t &&& mask))
        &&& ~~~clear) ||| set
      = (((d &&& ~~~mask) ||| (t &&& mask)) &&& ~~~clear) ||| set := by
  ext i hi
  simp only [BitVec.getElem_and, BitVec.getElem_or, BitVec.getElem_not]
  cases mask[i] <;> cases clear[i] <;> cases set[i] <;> simp

/-- Flags that are cleared and set a second time are as if set once. -/
theorem raw_again (d clear set : Flags) :
    (((d &&& ~~~clear) ||| set) &&& ~~~clear) ||| set = (d &&& ~~~clear) ||| set := by
  ext i hi
  simp only [BitVec.getElem_and, BitVec.getElem_or, BitVec.getElem_not]
  cases clear[i] <;> cases set[i] <;> simp

/-- **What is synchronised again** is as if it had never been before. -/
theorem sync_sync (dst src src' : Termios) : (dst.sync src).sync src' = dst.sync src' := by
  unfold Termios.sync cfmakeraw
  dsimp only
  rw [copied_again, copied_again, copied_again_set, raw_again]

/-- A part of the flags that is cleared and set is what was set. -/
theorem kept_flags {clear set keep : Flags} (d : Flags) (hclear : ~~~clear &&& keep = 0#32)
    (hset : set &&& keep = set) : ((d &&& ~~~clear) ||| set) &&& keep = set := by
  rw [BitVec.and_comm, BitVec.and_or_distrib_left, BitVec.and_comm keep, BitVec.and_assoc, hclear,
    BitVec.and_zero, BitVec.zero_or, BitVec.and_comm, hset]

/-- The terminal sends signals, and neither gathers lines nor echoes them. -/
theorem sync_lflag (dst src : Termios) :
    (dst.sync src).lflag &&& (ISIG ||| ICANON ||| ECHO) = ISIG :=
  kept_flags _ (by decide) (by decide)

/-! ## The code of `manage` -/

structure Winsize where
  rows : Nat
  cols : Nat
deriving DecidableEq

def SIGQUIT : Int := 3
def SIGTSTP : Int := 20
def SIGWINCH : Int := 28

/-- The signals of the signalfd. -/
def ttySignals : Finset Int := {BeamOs.SIGINT, SIGQUIT, SIGTSTP, SIGWINCH}

def signalNumber : TtySignal → Int
  | .interrupt => BeamOs.SIGINT
  | .quit => SIGQUIT
  | .stop => SIGTSTP
  | .resize => SIGWINCH

/-- The four signals are those that are blocked. -/
theorem signalNumber_mem (sig : TtySignal) : signalNumber sig ∈ ttySignals := by
  cases sig <;> decide

inductive Act where
  /-- `UserTerm::open`: the settings are kept for the destructor. -/
  | openTty
  /-- `SignalSet::new` and `SignalFd::new`. -/
  | newSignals
  | block
  | newClient
  | notifyAttached
  /-- The calls of `UserTerm::sync`. -/
  | getTty
  | getClient
  | setTty
  | getSize
  | setSize
  /-- The poller, the non-blocking descriptors and their registration. -/
  | prepare
  | poll
  /-- An event of `poll`. -/
  | event (token : Token)
  | sendSignal
  | notifyDetached
  /-- The destructors of `UserTerm` and `SignalFdRestore`. -/
  | restoreTty
  | newline
  | restoreMask
deriving DecidableEq

def sync : List Act := [.getTty, .getClient, .setTty, .getSize, .setSize]

/-- `manage` up to its loop. -/
def prelude : List Act :=
  [.openTty, .newSignals, .block, .newClient, .notifyAttached] ++ sync ++ List.replicate 6 .prepare

/-- The top of the loop. -/
def loopHead : List Act := sync ++ [.poll]

inductive Ending where
  | ok
  | error
  | panicked
deriving DecidableEq

/-! ## beamctl and the terminals -/

structure Managing where
  todo : List Act
  ending : Option Ending
  /-- The user's terminal, and the PTY. -/
  settings : Termios
  size : Winsize
  client : Termios
  clientSize : Winsize
  sigmask : Finset Int
  /-- `original_termios` and the old signal mask, while there is a destructor to restore them. -/
  tty : Option Termios
  signals : Option (Finset Int)
  /-- The variables of `sync`. -/
  dst : Termios
  src : Termios
  wsize : Winsize
  /-- The last the service was told. -/
  attached : Bool
  /-- Signals that wait until they are read or unblocked. -/
  pending : Finset TtySignal
  /-- The signals that beamctl was started to ignore. -/
  ignored : Finset TtySignal
  /-- The signal that ended beamctl inside `manage`; no destructor runs any more. -/
  killedBy : Option TtySignal

namespace Managing

/-- The variables of `sync` have no value yet. -/
def start (settings client : Termios) (size clientSize : Winsize) (sigmask : Finset Int)
    (ignored : Finset TtySignal) : Managing where
  todo := prelude
  ending := none
  settings := settings
  size := size
  client := client
  clientSize := clientSize
  sigmask := sigmask
  tty := none
  signals := none
  dst := settings
  src := client
  wsize := size
  attached := false
  pending := ∅
  ignored := ignored
  killedBy := none

/-- The pending signals that are not blocked. -/
def due (w : Managing) : Finset TtySignal :=
  w.pending.filter (fun sig => signalNumber sig ∉ w.sigmask)

/-- Their default actions: SIGINT and SIGQUIT end the process, SIGTSTP stops it until
    it is continued, and SIGWINCH does nothing. -/
def deliver (w : Managing) : Managing :=
  { w with
    pending := w.pending \ w.due
    killedBy := [TtySignal.interrupt, .quit].find? (fun sig => sig ∈ w.due ∧ sig ∉ w.ignored) }

/-- `?` on an error: the destructors run, the last one made first. -/
def unwind (w : Managing) : Managing :=
  { w with
    todo := (if w.signals.isSome then [.restoreMask] else [])
      ++ if w.tty.isSome then [.restoreTty] else []
    ending := some .error }

/-- `drop(tty)`, `println!()` and `return Ok(())`. -/
def finish (w : Managing) : Managing :=
  { w with
    todo := .restoreTty :: .newline :: if w.signals.isSome then [.restoreMask] else []
    ending := some .ok }

end Managing

inductive ManageMove where
  | ok
  | fails
  | polled (events : List Token)
  | copied (result : Except CopyError Unit)
  | took (sig : TtySignal)
  /-- The terminal sends a signal to beamctl. -/
  | arrives (sig : TtySignal)
  /-- The loop begins again. -/
  | again
  /-- The service changes its settings, or the user's terminal its size. -/
  | service (client : Termios) (size : Winsize)
  | resized (size : Winsize)

/-- A call that succeeds and has nothing to say. -/
def Act.run (w : Managing) : Act → Option Managing
  | .openTty => some { w with tty := some w.settings }
  | .block => some { w with signals := some w.sigmask, sigmask := w.sigmask ∪ ttySignals }
  | .notifyAttached => some { w with attached := true }
  | .getTty => some { w with dst := w.settings }
  | .getClient => some { w with src := w.client }
  | .setTty => some { w with settings := w.dst.sync w.src }
  | .getSize => some { w with wsize := w.size }
  | .setSize => some { w with clientSize := w.wsize }
  | .newSignals | .newClient | .prepare | .sendSignal | .newline => some w
  | .notifyDetached => some ({ w with attached := false }.finish)
  | .restoreTty =>
      match w.tty with
      | some original => some { w with settings := original, tty := none }
      | none => none
  | .restoreMask =>
      match w.signals with
      | some old => some ({ w with sigmask := old, signals := none }.deliver)
      | none => none
  | .poll | .event _ => none

/-- What a signal adds to what there is to do. -/
def signalActs : TtySignal → List Act
  | .interrupt | .quit => [.sendSignal]
  | .resize => []
  | .stop => [.notifyDetached]

def Act.isDestructor : Act → Bool
  | .restoreTty | .restoreMask => true
  | _ => false

/-- A destructor's `expect` is a panic, and the others still run; another call that
    fails ends `manage` with an error. -/
def Managing.failed (w : Managing) (rest : List Act) : Managing :=
  match w.ending with
  | none => { w with todo := rest }.unwind
  | some _ => { w with todo := rest.filter Act.isDestructor, ending := some .panicked }

/-- What a move does to a process that no signal has ended. -/
def aliveStep (w : Managing) : ManageMove → Option Managing
  | .service client clientSize => some { w with client, clientSize }
  | .resized size => some { w with size }
  | .again =>
      match w.todo, w.ending with
      | [], none => some { w with todo := loopHead }
      | _, _ => none
  | .ok =>
      match w.todo with
      | a :: rest => Act.run { w with todo := rest } a
      | [] => none
  | .fails =>
      match w.todo with
      | [] => none
      | _ :: rest => some (w.failed rest)
  | .polled events =>
      match w.todo with
      | .poll :: rest => some { w with todo := events.map Act.event ++ rest }
      | _ => none
  | .copied result =>
      match w.todo with
      | .event token :: rest =>
          if token = .signalArrived then none
          else
            match terminated result with
            | .ok true => some w.finish
            | .ok false => some { w with todo := rest }
            | .error _ => some { w with todo := rest }.unwind
      | _ => none
  | .took sig =>
      match w.todo with
      | .event .signalArrived :: rest =>
          if sig ∈ w.pending then
            some { w with todo := signalActs sig ++ rest, pending := w.pending.erase sig }
          else none
      | _ => none
  | .arrives sig => some ({ w with pending := insert sig w.pending }.deliver)

def manageStep (w : Managing) (move : ManageMove) : Option Managing :=
  if w.killedBy = none then aliveStep w move else none

def ManageStep (w : Managing) (move : ManageMove) (w' : Managing) : Prop :=
  manageStep w move = some w'

/-- A step is one of a beamctl that was not killed. -/
theorem manageStep_iff {w w' : Managing} {move : ManageMove} :
    ManageStep w move w' ↔ w.killedBy = none ∧ aliveStep w move = some w' :=
  Option.ite_none_right_eq_some

/-! ## Where `manage` is -/

/-- What handling the events of `poll` consists of. -/
def Act.handles : Act → Bool
  | .event _ | .sendSignal | .notifyDetached => true
  | _ => false

/-- What a way out consists of. -/
def Act.leaves : Act → Bool
  | .restoreTty | .newline | .restoreMask => true
  | _ => false

def Ahead (todo : List Act) : Prop :=
  todo ∈ prelude.tails ∨ todo ∈ loopHead.tails ∨ ∀ a ∈ todo, a.handles = true

theorem mem_of_tails {a : Act} {rest program : List Act} (h : a :: rest ∈ program.tails) :
    a ∈ program :=
  ((List.mem_tails _ _).mp h).subset List.mem_cons_self

/-- What is ahead after an act is ahead. -/
theorem Ahead.rest {a : Act} {rest : List Act} (h : Ahead (a :: rest)) : Ahead rest := by
  have htail : ∀ {program : List Act}, a :: rest ∈ program.tails → rest ∈ program.tails := by
    intro program hmem
    rw [List.mem_tails] at hmem ⊢
    exact (List.suffix_cons a rest).trans hmem
  rcases h with h | h | h
  · exact .inl (htail h)
  · exact .inr (.inl (htail h))
  · exact .inr (.inr fun b hb => h b (List.mem_cons_of_mem _ hb))

/-- No destructor runs before the end. -/
theorem Ahead.not_leaves {a : Act} {rest : List Act} (h : Ahead (a :: rest)) :
    a.leaves = false := by
  have hprelude : ∀ a ∈ prelude, Act.leaves a = false := by decide
  have hloop : ∀ a ∈ loopHead, Act.leaves a = false := by decide
  rcases h with h | h | h
  · exact hprelude a (mem_of_tails h)
  · exact hloop a (mem_of_tails h)
  · have hhandles := h a List.mem_cons_self
    cases a <;> first | rfl | exact nomatch hhandles

/-- The terminal is opened once, and the signals are blocked once. -/
theorem Ahead.once {a : Act} {rest : List Act} (h : Ahead (a :: rest)) (ha : a = .openTty ∨ a = .block) :
    a ∉ rest := by
  have hprelude : ∀ todo ∈ prelude.tails,
      (.openTty ∈ todo.head? → .openTty ∉ todo.tail) ∧ (.block ∈ todo.head? → .block ∉ todo.tail) := by
    decide
  have hloop : .openTty ∉ loopHead ∧ .block ∉ loopHead := by decide
  rcases h with h | h | h
  · rcases ha with rfl | rfl
    · exact (hprelude _ h).1 rfl
    · exact (hprelude _ h).2 rfl
  · rcases ha with rfl | rfl
    · exact absurd (mem_of_tails h) hloop.1
    · exact absurd (mem_of_tails h) hloop.2
  · have hhandles := h a List.mem_cons_self
    rcases ha with rfl | rfl <;> exact nomatch hhandles

/-- The settings are written after those of the PTY are read. -/
theorem Ahead.setTty {rest : List Act} (h : Ahead (.getClient :: rest)) : .setTty ∈ rest := by
  have hprelude : ∀ todo ∈ prelude.tails, .getClient ∈ todo.head? → .setTty ∈ todo.tail := by decide
  have hloop : ∀ todo ∈ loopHead.tails, .getClient ∈ todo.head? → .setTty ∈ todo.tail := by decide
  rcases h with h | h | h
  · exact hprelude _ h rfl
  · exact hloop _ h rfl
  · exact nomatch h _ List.mem_cons_self

/-- The poll is the last act ahead. -/
theorem Ahead.poll {rest : List Act} (h : Ahead (.poll :: rest)) : rest = [] := by
  have hprelude : .poll ∉ prelude := by decide
  have hloop : ∀ todo ∈ loopHead.tails, .poll ∈ todo.head? → todo.tail = [] := by decide
  rcases h with h | h | h
  · exact absurd (mem_of_tails h) hprelude
  · exact hloop _ h rfl
  · exact nomatch h _ List.mem_cons_self

/-- Events are handled among nothing else. -/
theorem Ahead.handled {a : Act} {rest : List Act} (h : Ahead (a :: rest)) (ha : a.handles = true) :
    ∀ b ∈ a :: rest, b.handles = true := by
  have hprelude : ∀ a ∈ prelude, a.handles = false := by decide
  have hloop : ∀ a ∈ loopHead, a.handles = false := by decide
  rcases h with h | h | h
  · exact nomatch ha.symm.trans (hprelude _ (mem_of_tails h))
  · exact nomatch ha.symm.trans (hloop _ (mem_of_tails h))
  · exact h

/-- The way out of a `return Ok(())`. -/
def wayOut : List Act := [.restoreTty, .newline, .restoreMask]

/-- Before the end, what was acquired is what is no longer to be acquired; after it,
    what is left to do releases what is held. -/
structure Placed (w : Managing) : Prop where
  ahead : w.ending = none → Ahead w.todo
  opened : w.ending = none → (w.tty = none ↔ .openTty ∈ w.todo)
  blocked : w.ending = none → (w.signals = none ↔ .block ∈ w.todo)
  leaving : w.ending ≠ none → ∀ a ∈ w.todo, a.leaves = true
  drops : w.ending ≠ none → w.ending ≠ some .panicked →
    (w.tty ≠ none → .restoreTty ∈ w.todo) ∧ (w.signals ≠ none → .restoreMask ∈ w.todo)
  /-- On the way out of a success the mask is restored last. -/
  ordered : w.ending = some .ok →
    w.todo ∈ wayOut.tails ∧ (w.signals = none → w.tty = none)

section Placed

variable {w w' : Managing}

/-- Delivering signals runs no destructor. -/
theorem Placed.deliver (h : Placed w) : Placed w.deliver :=
  ⟨h.ahead, h.opened, h.blocked, h.leaving, h.drops, h.ordered⟩

/-- Unwinding releases what is held. -/
theorem placed_unwind (w : Managing) : Placed w.unwind := by
  refine ⟨nofun, nofun, nofun, fun _ a ha => ?_,
    fun _ _ => ⟨fun htty => ?_, fun hsignals => ?_⟩, nofun⟩
  · unfold Managing.unwind at ha
    dsimp only at ha
    rcases List.mem_append.mp ha with ha | ha
    · split at ha
      · cases List.mem_singleton.mp ha
        rfl
      · exact nomatch ha
    · split at ha
      · cases List.mem_singleton.mp ha
        rfl
      · exact nomatch ha
  · have hsome : w.tty.isSome = true := Option.isSome_iff_ne_none.mpr htty
    unfold Managing.unwind
    dsimp only
    rw [if_pos hsome]
    exact List.mem_append_right _ List.mem_cons_self
  · have hsome : w.signals.isSome = true := Option.isSome_iff_ne_none.mpr hsignals
    unfold Managing.unwind
    dsimp only
    rw [if_pos hsome]
    exact List.mem_append_left _ List.mem_cons_self

/-- So does the end. -/
theorem placed_finish (hblocked : w.signals ≠ none) : Placed w.finish := by
  have hsome : w.signals.isSome = true := Option.isSome_iff_ne_none.mpr hblocked
  have htodo : w.finish.todo = wayOut := by
    unfold Managing.finish
    dsimp only
    rw [if_pos hsome]
    rfl
  refine ⟨nofun, nofun, nofun, fun _ a ha => ?_, fun _ _ => ⟨fun _ => ?_, fun _ => ?_⟩,
    fun _ => ⟨?_, fun hnone => absurd hnone hblocked⟩⟩
  · have hleaves : ∀ a ∈ wayOut, a.leaves = true := by decide
    exact hleaves a (htodo ▸ ha)
  · rw [htodo]
    decide
  · rw [htodo]
    decide
  · rw [htodo]
    exact (List.mem_tails _ _).mpr (List.suffix_refl _)

theorem rest_tails {a : Act} {todo rest program : List Act} (htodo : todo = a :: rest)
    (h : todo ∈ program.tails) : rest ∈ program.tails := by
  rw [htodo, List.mem_tails] at h
  exact (List.mem_tails _ _).mpr ((List.suffix_cons a rest).trans h)

/-- A move that only takes an act off the list. -/
theorem Placed.next {a : Act} {rest : List Act} (h : Placed w) (htodo : w.todo = a :: rest)
    (ha : a ≠ .openTty ∧ a ≠ .block ∧ a ≠ .restoreTty ∧ a ≠ .restoreMask)
    (htodo' : w'.todo = rest) (hending : w'.ending = w.ending) (htty : w'.tty = w.tty)
    (hsignals : w'.signals = w.signals) : Placed w' := by
  have hmem : ∀ b, b ≠ a → (b ∈ w.todo ↔ b ∈ rest) := by
    intro b hb
    rw [htodo, List.mem_cons]
    exact or_iff_right hb
  rw [← htodo'] at hmem
  refine ⟨fun hnone => ?_, fun hnone => ?_, fun hnone => ?_, fun hsome b hb => ?_,
    fun hsome hpanic => ?_, fun hok => ?_⟩
  · rw [htodo']
    exact (htodo ▸ h.ahead (hending ▸ hnone)).rest
  · rw [htty, ← hmem _ ha.1.symm]
    exact h.opened (hending ▸ hnone)
  · rw [hsignals, ← hmem _ ha.2.1.symm]
    exact h.blocked (hending ▸ hnone)
  · rw [htodo'] at hb
    exact h.leaving (hending ▸ hsome) b (htodo ▸ List.mem_cons_of_mem _ hb)
  · rw [htty, hsignals, ← hmem _ ha.2.2.1.symm, ← hmem _ ha.2.2.2.symm]
    exact h.drops (hending ▸ hsome) (hending ▸ hpanic)
  · obtain ⟨htails, hlast⟩ := h.ordered (hending ▸ hok)
    rw [htodo', htty, hsignals]
    exact ⟨rest_tails htodo htails, hlast⟩

theorem mem_rest {a b : Act} {todo rest : List Act} (htodo : todo = a :: rest) (hb : b ∈ todo)
    (hne : b ≠ a) : b ∈ rest := by
  rw [htodo] at hb
  exact (List.mem_cons.mp hb).resolve_left hne

/-- What belongs to no way out is only done before the end. -/
theorem Placed.running {a : Act} {rest : List Act} (h : Placed w) (htodo : w.todo = a :: rest)
    (ha : a.leaves = false) : w.ending = none := by
  by_contra hsome
  have hleaves := h.leaving hsome a (htodo ▸ List.mem_cons_self)
  exact Bool.false_ne_true (ha.symm.trans hleaves)

/-- The signals are blocked while events are handled. -/
theorem Placed.handling {a : Act} {rest : List Act} (h : Placed w) (htodo : w.todo = a :: rest)
    (ha : a.handles = true) (hnone : w.ending = none) : w.signals ≠ none := by
  intro hopen
  have hblock := (h.blocked hnone).mp hopen
  exact nomatch (htodo ▸ h.ahead hnone).handled ha _ (htodo ▸ hblock)

/-- The acts for a signal acquire and release nothing. -/
theorem signalActs_handles (sig : TtySignal) : ∀ a ∈ signalActs sig, a.handles = true := by
  cases sig <;> decide

/-- A call that succeeds. -/
theorem placed_run {a : Act} {rest : List Act} (h : Placed w) (htodo : w.todo = a :: rest)
    (hrun : Act.run { w with todo := rest } a = some w') : Placed w' := by
  cases a with
  | newSignals | newClient | notifyAttached | getTty | getClient | setTty | getSize | setSize
  | prepare | sendSignal | newline =>
      cases hrun
      exact h.next htodo ⟨nofun, nofun, nofun, nofun⟩ rfl rfl rfl rfl
  | notifyDetached =>
      cases hrun
      exact placed_finish (h.handling htodo rfl (h.running htodo rfl))
  | poll | event _ => exact nomatch hrun
  | openTty =>
      cases hrun
      have hnone := h.running htodo rfl
      have hahead := htodo ▸ h.ahead hnone
      refine ⟨fun _ => hahead.rest, fun _ => ?_, fun _ => ?_, fun hsome => absurd hnone hsome,
        fun hsome => absurd hnone hsome, fun hok => nomatch hnone.symm.trans hok⟩
      · exact iff_of_false (Option.some_ne_none _) (hahead.once (.inl rfl))
      · rw [h.blocked hnone, htodo, List.mem_cons]
        exact or_iff_right (show Act.block ≠ .openTty from nofun)
  | block =>
      cases hrun
      have hnone := h.running htodo rfl
      have hahead := htodo ▸ h.ahead hnone
      refine ⟨fun _ => hahead.rest, fun _ => ?_, fun _ => ?_, fun hsome => absurd hnone hsome,
        fun hsome => absurd hnone hsome, fun hok => nomatch hnone.symm.trans hok⟩
      · rw [h.opened hnone, htodo, List.mem_cons]
        exact or_iff_right (show Act.openTty ≠ .block from nofun)
      · exact iff_of_false (Option.some_ne_none _) (hahead.once (.inr rfl))
  | restoreTty =>
      have hsome : w.ending ≠ none := fun hnone =>
        nomatch (htodo ▸ h.ahead hnone : Ahead (.restoreTty :: rest)).not_leaves
      unfold Act.run at hrun
      cases htty : w.tty with
      | none =>
          rw [htty] at hrun
          exact nomatch hrun
      | some original =>
          rw [htty] at hrun
          cases hrun
          refine ⟨fun hnone => absurd hnone hsome, fun hnone => absurd hnone hsome,
            fun hnone => absurd hnone hsome, fun _ b hb => ?_, fun _ hpanic => ⟨nofun, fun hsig => ?_⟩,
            fun hok => ⟨rest_tails htodo (h.ordered hok).1, fun _ => rfl⟩⟩
          · exact h.leaving hsome b (htodo ▸ List.mem_cons_of_mem _ hb)
          · exact mem_rest htodo ((h.drops hsome hpanic).2 hsig) nofun
  | restoreMask =>
      have hsome : w.ending ≠ none := fun hnone =>
        nomatch (htodo ▸ h.ahead hnone : Ahead (.restoreMask :: rest)).not_leaves
      unfold Act.run at hrun
      cases hsignals : w.signals with
      | none =>
          rw [hsignals] at hrun
          exact nomatch hrun
      | some old =>
          rw [hsignals] at hrun
          cases hrun
          refine Placed.deliver ⟨fun hnone => absurd hnone hsome, fun hnone => absurd hnone hsome,
            fun hnone => absurd hnone hsome, fun _ b hb => ?_, fun _ hpanic => ⟨fun htty => ?_, nofun⟩,
            fun hok => ?_⟩
          · exact h.leaving hsome b (htodo ▸ List.mem_cons_of_mem _ hb)
          · exact mem_rest htodo ((h.drops hsome hpanic).1 htty) nofun
          · -- the mask comes last, so the terminal has been restored
            have htails := (h.ordered hok).1
            refine ⟨rest_tails htodo htails, fun _ => ?_⟩
            have hlast : ∀ todo ∈ wayOut.tails, .restoreMask ∈ todo.head? → .restoreTty ∉ todo := by
              decide
            by_contra htty
            have hdrop := (h.drops hsome (by rw [show w.ending = _ from hok]; exact nofun)).1 htty
            exact hlast _ htails (by rw [htodo]; rfl) hdrop

/-- A call that fails unwinds from what is held. -/
theorem placed_failed {a : Act} {rest : List Act} (h : Placed w) (htodo : w.todo = a :: rest) :
    Placed (w.failed rest) := by
  unfold Managing.failed
  cases hending : w.ending with
  | none => exact placed_unwind _
  | some ending =>
      refine ⟨nofun, nofun, nofun, fun _ b hb => ?_, fun _ hpanic => absurd rfl hpanic, nofun⟩
      have hmem : b ∈ w.todo := htodo ▸ List.mem_cons_of_mem a (List.mem_of_mem_filter hb)
      exact h.leaving (by rw [hending]; exact nofun) b hmem

/-- Events and the signals read in between are handled among nothing else. -/
theorem Placed.handle {token : Token} {rest acts : List Act} (h : Placed w)
    (htodo : w.todo = .event token :: rest) (hacts : ∀ a ∈ acts, a.handles = true) :
    Placed { w with todo := acts ++ rest } := by
  have hnone := h.running htodo rfl
  have hrest : ∀ a ∈ rest, a.handles = true := fun a ha =>
    (htodo ▸ h.ahead hnone).handled rfl a (List.mem_cons_of_mem _ ha)
  have hall : ∀ a ∈ acts ++ rest, a.handles = true :=
    List.forall_mem_append.mpr ⟨hacts, hrest⟩
  have hmem : ∀ {a : Act}, a.handles = false → (a ∈ w.todo ↔ a ∈ acts ++ rest) := by
    intro a ha
    refine iff_of_false (fun hmem => ?_) fun hmem => nomatch ha.symm.trans (hall a hmem)
    rw [htodo, List.mem_cons] at hmem
    rcases hmem with rfl | hmem
    · exact nomatch ha
    · exact nomatch ha.symm.trans (hrest a hmem)
  refine ⟨fun _ => .inr (.inr hall), fun _ => ?_, fun _ => ?_, fun hsome => absurd hnone hsome,
    fun hsome => absurd hnone hsome, fun hok => nomatch hnone.symm.trans hok⟩
  · exact (h.opened hnone).trans (hmem rfl)
  · exact (h.blocked hnone).trans (hmem rfl)

/-- **Every step** keeps what is held in step with what is to be done. -/
theorem placed_step {move : ManageMove} (h : Placed w) (hstep : ManageStep w move w') :
    Placed w' := by
  obtain ⟨-, hstep⟩ := manageStep_iff.mp hstep
  unfold aliveStep at hstep
  cases move with
  | service client size =>
      cases hstep
      exact ⟨h.ahead, h.opened, h.blocked, h.leaving, h.drops, h.ordered⟩
  | resized size =>
      cases hstep
      exact ⟨h.ahead, h.opened, h.blocked, h.leaving, h.drops, h.ordered⟩
  | arrives sig =>
      cases hstep
      exact Placed.deliver ⟨h.ahead, h.opened, h.blocked, h.leaving, h.drops, h.ordered⟩
  | again =>
      dsimp only at hstep
      split at hstep
      · rename_i htodo hnone
        cases hstep
        have hloop : .openTty ∉ loopHead ∧ .block ∉ loopHead := by decide
        have hempty : ∀ {a : Act}, a ∉ w.todo := fun hmem => nomatch htodo ▸ hmem
        refine ⟨fun _ => .inr (.inl ?_), fun _ => ?_, fun _ => ?_, fun hsome => absurd hnone hsome,
          fun hsome => absurd hnone hsome, fun hok => nomatch hnone.symm.trans hok⟩
        · exact (List.mem_tails _ _).mpr (List.suffix_refl _)
        · exact (h.opened hnone).trans (iff_of_false hempty hloop.1)
        · exact (h.blocked hnone).trans (iff_of_false hempty hloop.2)
      · exact nomatch hstep
  | ok =>
      dsimp only at hstep
      cases htodo : w.todo with
      | nil => rw [htodo] at hstep; exact nomatch hstep
      | cons a rest => rw [htodo] at hstep; exact placed_run h htodo hstep
  | fails =>
      dsimp only at hstep
      cases htodo : w.todo with
      | nil => rw [htodo] at hstep; exact nomatch hstep
      | cons a rest =>
          rw [htodo] at hstep
          cases hstep
          exact placed_failed h htodo
  | polled events =>
      dsimp only at hstep
      split at hstep
      · rename_i rest htodo
        cases hstep
        have hnone := h.running htodo rfl
        obtain rfl := Ahead.poll (htodo ▸ h.ahead hnone)
        have hall : ∀ a ∈ events.map Act.event ++ [], a.handles = true := by
          intro a ha
          rw [List.append_nil] at ha
          obtain ⟨token, -, rfl⟩ := List.mem_map.mp ha
          rfl
        have hnot : ∀ {a : Act}, a.handles = false → a ≠ .poll →
            (a ∈ w.todo ↔ a ∈ events.map Act.event ++ []) := by
          intro a ha hpoll
          refine iff_of_false (fun hmem => ?_) fun hmem => nomatch ha.symm.trans (hall a hmem)
          rw [htodo] at hmem
          exact hpoll (List.mem_singleton.mp hmem)
        refine ⟨fun _ => .inr (.inr hall), fun _ => ?_, fun _ => ?_,
          fun hsome => absurd hnone hsome, fun hsome => absurd hnone hsome,
          fun hok => nomatch hnone.symm.trans hok⟩
        · exact (h.opened hnone).trans (hnot rfl nofun)
        · exact (h.blocked hnone).trans (hnot rfl nofun)
      · exact nomatch hstep
  | copied result =>
      dsimp only at hstep
      split at hstep
      · rename_i token rest htodo
        split at hstep
        · exact nomatch hstep
        · split at hstep
          · cases hstep
            exact placed_finish (h.handling htodo rfl (h.running htodo rfl))
          · cases hstep
            have hhandled : Placed { w with todo := [] ++ rest } := h.handle htodo nofun
            exact hhandled
          · cases hstep
            exact placed_unwind _
      · exact nomatch hstep
  | took sig =>
      dsimp only at hstep
      split at hstep
      · rename_i rest htodo
        obtain ⟨-, hw⟩ := Option.ite_none_right_eq_some.mp hstep
        cases hw
        obtain ⟨h1, h2, h3, h4, h5, h6⟩ := h.handle htodo (signalActs_handles sig)
        exact ⟨h1, h2, h3, h4, h5, h6⟩
      · exact nomatch hstep

end Placed

/-! ## What the terminal is set to -/

/-- The settings as they were, or as one synchronisation leaves them. -/
def Synced (settings t : Termios) : Prop := t = settings ∨ ∃ src, t = settings.sync src

/-- A second synchronisation leaves what one would. -/
theorem Synced.sync {settings t : Termios} (h : Synced settings t) (src : Termios) :
    t.sync src = settings.sync src := by
  rcases h with rfl | ⟨src', rfl⟩
  · rfl
  · exact sync_sync settings src' src

/-- The settings and the mask of the start are kept by the destructors, and are in force
    where there is none. -/
structure Guarded (settings : Termios) (sigmask : Finset Int) (w : Managing) : Prop where
  tty : ∀ original, w.tty = some original → original = settings
  closed : w.tty = none → w.settings = settings
  synced : Synced settings w.settings
  dst : Synced settings w.dst
  signals : ∀ old, w.signals = some old → old = sigmask ∧ w.sigmask = sigmask ∪ ttySignals
  unblocked : w.signals = none → w.sigmask = sigmask
  /-- Past the settings of a round, the terminal has those of the PTY. -/
  current : w.ending = none → .setTty ∉ w.todo → w.settings = settings.sync w.src

section Guarded

variable {settings : Termios} {sigmask : Finset Int} {w w' : Managing}

/-- A move that leaves the user's terminal and the signals alone. -/
theorem Guarded.of_same (h : Guarded settings sigmask w) (hsettings : w'.settings = w.settings)
    (htty : w'.tty = w.tty) (hdst : w'.dst = w.dst) (hsignals : w'.signals = w.signals)
    (hsigmask : w'.sigmask = w.sigmask)
    (hcurrent : w'.ending = none → .setTty ∉ w'.todo →
      w'.src = w.src ∧ w.ending = none ∧ .setTty ∉ w.todo) : Guarded settings sigmask w' := by
  refine ⟨?_, ?_, ?_, ?_, ?_, ?_, fun hnone hset => ?_⟩
  · rw [htty]
    exact h.tty
  · rw [htty, hsettings]
    exact h.closed
  · rw [hsettings]
    exact h.synced
  · rw [hdst]
    exact h.dst
  · rw [hsignals, hsigmask]
    exact h.signals
  · rw [hsignals, hsigmask]
    exact h.unblocked
  · obtain ⟨hsrc, hnone, hset⟩ := hcurrent hnone hset
    rw [hsettings, hsrc]
    exact h.current hnone hset

/-- Delivering a signal changes neither settings nor mask. -/
theorem Guarded.deliver (h : Guarded settings sigmask w) : Guarded settings sigmask w.deliver :=
  ⟨h.tty, h.closed, h.synced, h.dst, h.signals, h.unblocked, h.current⟩

/-- At first the settings and the mask are in force. -/
theorem guarded_start (client : Termios) (size clientSize : Winsize) (ignored : Finset TtySignal) :
    Guarded settings sigmask (.start settings client size clientSize sigmask ignored) := by
  refine ⟨nofun, fun _ => rfl, .inl rfl, .inl rfl, nofun, fun _ => rfl, fun _ hset => ?_⟩
  exact absurd (show Act.setTty ∈ prelude by decide) hset

/-- A call that succeeds. -/
theorem guarded_run {a : Act} {rest : List Act} (hp : Placed w) (h : Guarded settings sigmask w)
    (htodo : w.todo = a :: rest) (hrun : Act.run { w with todo := rest } a = some w') :
    Guarded settings sigmask w' := by
  have hset : a ≠ .setTty → .setTty ∉ rest → .setTty ∉ w.todo := by
    intro hne hrest hmem
    exact hrest (mem_rest htodo hmem (Ne.symm hne))
  cases a with
  | newSignals | newClient | notifyAttached | getSize | setSize | prepare | sendSignal | newline =>
      cases hrun
      exact h.of_same rfl rfl rfl rfl rfl fun hnone hrest => ⟨rfl, hnone, hset nofun hrest⟩
  | poll | event _ => exact nomatch hrun
  | notifyDetached =>
      cases hrun
      exact h.of_same rfl rfl rfl rfl rfl nofun
  | openTty =>
      cases hrun
      have hnone := hp.running htodo rfl
      have hsettings := h.closed ((hp.opened hnone).mpr (htodo ▸ List.mem_cons_self))
      refine ⟨fun original ho => ?_, nofun, h.synced, h.dst, h.signals, h.unblocked,
        fun hnone hrest => h.current hnone (hset nofun hrest)⟩
      exact (Option.some.inj ho).symm.trans hsettings
  | block =>
      cases hrun
      have hnone := hp.running htodo rfl
      have hmask := h.unblocked ((hp.blocked hnone).mpr (htodo ▸ List.mem_cons_self))
      refine ⟨h.tty, h.closed, h.synced, h.dst, fun old ho => ?_, nofun,
        fun hnone hrest => h.current hnone (hset nofun hrest)⟩
      exact ⟨(Option.some.inj ho).symm.trans hmask, congrArg (· ∪ ttySignals) hmask⟩
  | getTty =>
      cases hrun
      exact ⟨h.tty, h.closed, h.synced, h.synced, h.signals, h.unblocked,
        fun hnone hrest => h.current hnone (hset nofun hrest)⟩
  | getClient =>
      cases hrun
      have hnone := hp.running htodo rfl
      have hahead := htodo ▸ hp.ahead hnone
      exact ⟨h.tty, h.closed, h.synced, h.dst, h.signals, h.unblocked,
        fun _ hrest => absurd hahead.setTty hrest⟩
  | setTty =>
      cases hrun
      have hnone := hp.running htodo rfl
      have hsync := h.dst.sync w.src
      refine ⟨h.tty, fun hclosed => ?_, .inr ⟨w.src, hsync⟩, h.dst, h.signals, h.unblocked,
        fun _ _ => hsync⟩
      -- the terminal is open by then
      have hopen : .openTty ∈ w.todo := (hp.opened hnone).mp hclosed
      have hprelude : ∀ todo ∈ prelude.tails, .setTty ∈ todo.head? → .openTty ∉ todo := by decide
      have hloop : .openTty ∉ loopHead := by decide
      rw [htodo] at hopen
      rcases htodo ▸ hp.ahead hnone with hahead | hahead | hahead
      · exact absurd hopen (hprelude _ hahead rfl)
      · exact absurd (((List.mem_tails _ _).mp hahead).subset hopen) hloop
      · exact nomatch hahead _ List.mem_cons_self
  | restoreTty =>
      have hsome : w.ending ≠ none := fun hnone =>
        nomatch (htodo ▸ hp.ahead hnone : Ahead (.restoreTty :: rest)).not_leaves
      unfold Act.run at hrun
      cases htty : w.tty with
      | none =>
          rw [htty] at hrun
          exact nomatch hrun
      | some original =>
          rw [htty] at hrun
          cases hrun
          have horiginal := h.tty original htty
          exact ⟨nofun, fun _ => horiginal, .inl horiginal, h.dst, h.signals, h.unblocked,
            fun hnone => absurd hnone hsome⟩
  | restoreMask =>
      have hsome : w.ending ≠ none := fun hnone =>
        nomatch (htodo ▸ hp.ahead hnone : Ahead (.restoreMask :: rest)).not_leaves
      unfold Act.run at hrun
      cases hsignals : w.signals with
      | none =>
          rw [hsignals] at hrun
          exact nomatch hrun
      | some old =>
          rw [hsignals] at hrun
          cases hrun
          exact Guarded.deliver ⟨h.tty, h.closed, h.synced, h.dst, nofun,
            fun _ => (h.signals old hsignals).1, fun hnone => absurd hnone hsome⟩

/-- **Every step** keeps the settings and the mask, or their destructors. -/
theorem guarded_step {move : ManageMove} (hp : Placed w) (h : Guarded settings sigmask w)
    (hstep : ManageStep w move w') : Guarded settings sigmask w' := by
  obtain ⟨-, hstep⟩ := manageStep_iff.mp hstep
  unfold aliveStep at hstep
  cases move with
  | arrives sig =>
      cases hstep
      exact Guarded.deliver
        ⟨h.tty, h.closed, h.synced, h.dst, h.signals, h.unblocked, h.current⟩
  | service client size =>
      cases hstep
      exact h.of_same rfl rfl rfl rfl rfl fun hnone hset => ⟨rfl, hnone, hset⟩
  | resized size =>
      cases hstep
      exact h.of_same rfl rfl rfl rfl rfl fun hnone hset => ⟨rfl, hnone, hset⟩
  | again =>
      dsimp only at hstep
      split at hstep
      · cases hstep
        refine h.of_same rfl rfl rfl rfl rfl fun _ hset => ?_
        exact absurd (show Act.setTty ∈ loopHead by decide) hset
      · exact nomatch hstep
  | ok =>
      dsimp only at hstep
      cases htodo : w.todo with
      | nil => rw [htodo] at hstep; exact nomatch hstep
      | cons a rest => rw [htodo] at hstep; exact guarded_run hp h htodo hstep
  | fails =>
      dsimp only at hstep
      cases htodo : w.todo with
      | nil => rw [htodo] at hstep; exact nomatch hstep
      | cons a rest =>
          rw [htodo] at hstep
          cases hstep
          unfold Managing.failed
          cases hending : w.ending with
          | none => exact h.of_same rfl rfl rfl rfl rfl nofun
          | some ending => exact h.of_same rfl rfl rfl rfl rfl nofun
  | polled events =>
      dsimp only at hstep
      split at hstep
      · rename_i rest htodo
        cases hstep
        have hnone := hp.running htodo rfl
        obtain rfl := Ahead.poll (htodo ▸ hp.ahead hnone)
        refine h.of_same rfl rfl rfl rfl rfl fun _ _ => ⟨rfl, hnone, fun hmem => ?_⟩
        rw [htodo] at hmem
        exact nomatch List.mem_singleton.mp hmem
      · exact nomatch hstep
  | copied result =>
      dsimp only at hstep
      split at hstep
      · rename_i token rest htodo
        split at hstep
        · exact nomatch hstep
        · split at hstep
          · cases hstep
            exact h.of_same rfl rfl rfl rfl rfl nofun
          · cases hstep
            refine h.of_same rfl rfl rfl rfl rfl fun hnone hset => ⟨rfl, hnone, fun hmem => ?_⟩
            exact hset (mem_rest htodo hmem nofun)
          · cases hstep
            exact h.of_same rfl rfl rfl rfl rfl nofun
      · exact nomatch hstep
  | took sig =>
      dsimp only at hstep
      split at hstep
      · rename_i rest htodo
        obtain ⟨-, hw⟩ := Option.ite_none_right_eq_some.mp hstep
        cases hw
        refine h.of_same rfl rfl rfl rfl rfl fun hnone hset => ⟨rfl, hnone, fun hmem => ?_⟩
        exact hset (List.mem_append_right _ (mem_rest htodo hmem nofun))
      · exact nomatch hstep

end Guarded

/-- At first nothing is held. -/
theorem placed_start (settings client : Termios) (size clientSize : Winsize)
    (sigmask : Finset Int) (ignored : Finset TtySignal) :
    Placed (.start settings client size clientSize sigmask ignored) := by
  refine ⟨fun _ => .inl ?_, fun _ => ?_, fun _ => ?_, fun hsome => absurd rfl hsome,
    fun hsome => absurd rfl hsome, nofun⟩
  · exact (List.mem_tails _ _).mpr (List.suffix_refl _)
  · exact iff_of_true rfl (show Act.openTty ∈ prelude by decide)
  · exact iff_of_true rfl (show Act.block ∈ prelude by decide)

/-! ## Signals that are not blocked -/

/-- Only a signal that may end a process, and that neither the mask nor the parent
    kept from it, has ended beamctl; before the signals are blocked, the terminal is
    as it was. -/
structure Exposed (settings : Termios) (ignored : Finset TtySignal) (w : Managing) : Prop where
  ignores : w.ignored = ignored
  killed : ∀ sig, w.killedBy = some sig →
    (sig = .interrupt ∨ sig = .quit) ∧ signalNumber sig ∉ w.sigmask ∧ sig ∉ ignored
  unset : w.ending = none → w.signals = none → w.settings = settings

section Exposed

variable {settings : Termios} {ignored : Finset TtySignal} {sigmask : Finset Int} {w w' : Managing}

/-- A signal that is delivered was exposed to beamctl. -/
theorem exposed_deliver (h : w.ignored = ignored)
    (hunset : w.ending = none → w.signals = none → w.settings = settings) :
    Exposed settings ignored w.deliver := by
  refine ⟨h, fun sig hkilled => ?_, hunset⟩
  have hfound : [TtySignal.interrupt, .quit].find? (fun sig => sig ∈ w.due ∧ sig ∉ w.ignored)
      = some sig := hkilled
  have hmem := List.mem_of_find?_eq_some hfound
  have hboth := List.find?_some hfound
  obtain ⟨hdue, hignored⟩ : sig ∈ w.due ∧ sig ∉ w.ignored := of_decide_eq_true hboth
  refine ⟨?_, (Finset.mem_filter.mp hdue).2, h ▸ hignored⟩
  rcases List.mem_cons.mp hmem with heq | hmem
  · exact .inl heq
  · exact .inr (List.mem_singleton.mp hmem)

/-- A move that delivers nothing, and sets nothing before the signals are blocked. -/
theorem Exposed.of_same (h : Exposed settings ignored w) (halive : w.killedBy = none)
    (hignored : w'.ignored = w.ignored) (hkilled : w'.killedBy = w.killedBy)
    (hunset : w'.ending = none → w'.signals = none →
      w.ending = none ∧ w.signals = none ∧ w'.settings = w.settings) :
    Exposed settings ignored w' := by
  refine ⟨hignored.trans h.ignores, fun sig hsig => ?_, fun hnone hopen => ?_⟩
  · exact nomatch (hkilled.trans halive).symm.trans hsig
  · obtain ⟨hnone, hopen, hsettings⟩ := hunset hnone hopen
    exact hsettings.trans (h.unset hnone hopen)

/-- A call that succeeds: signals are delivered when the mask is restored. -/
theorem exposed_run {a : Act} {rest : List Act} (hp : Placed w) (h : Exposed settings ignored w)
    (halive : w.killedBy = none) (htodo : w.todo = a :: rest)
    (hrun : Act.run { w with todo := rest } a = some w') : Exposed settings ignored w' := by
  cases a with
  | openTty | newSignals | newClient | notifyAttached | getTty | getClient | getSize | setSize
  | prepare | sendSignal | newline =>
      cases hrun
      exact h.of_same halive rfl rfl fun hnone hopen => ⟨hnone, hopen, rfl⟩
  | block | notifyDetached =>
      cases hrun
      exact h.of_same halive rfl rfl nofun
  | poll | event _ => exact nomatch hrun
  | setTty =>
      cases hrun
      refine h.of_same halive rfl rfl fun hnone hopen => ?_
      -- the signals are blocked by then
      have hblock : .block ∈ w.todo := (hp.blocked hnone).mp hopen
      have hprelude : ∀ todo ∈ prelude.tails, .setTty ∈ todo.head? → .block ∉ todo := by decide
      have hloop : .block ∉ loopHead := by decide
      rw [htodo] at hblock
      rcases htodo ▸ hp.ahead hnone with hahead | hahead | hahead
      · exact absurd hblock (hprelude _ hahead rfl)
      · exact absurd (((List.mem_tails _ _).mp hahead).subset hblock) hloop
      · exact nomatch hahead _ List.mem_cons_self
  | restoreTty =>
      have hsome : w.ending ≠ none := fun hnone =>
        nomatch (htodo ▸ hp.ahead hnone : Ahead (.restoreTty :: rest)).not_leaves
      unfold Act.run at hrun
      cases htty : w.tty with
      | none =>
          rw [htty] at hrun
          exact nomatch hrun
      | some original =>
          rw [htty] at hrun
          cases hrun
          exact h.of_same halive rfl rfl fun hnone => absurd hnone hsome
  | restoreMask =>
      have hsome : w.ending ≠ none := fun hnone =>
        nomatch (htodo ▸ hp.ahead hnone : Ahead (.restoreMask :: rest)).not_leaves
      unfold Act.run at hrun
      cases hsignals : w.signals with
      | none =>
          rw [hsignals] at hrun
          exact nomatch hrun
      | some old =>
          rw [hsignals] at hrun
          cases hrun
          exact exposed_deliver h.ignores fun hnone => absurd hnone hsome

/-- **Every step** ends beamctl by an exposed signal only. -/
theorem exposed_step {move : ManageMove} (hp : Placed w) (h : Exposed settings ignored w)
    (hstep : ManageStep w move w') : Exposed settings ignored w' := by
  obtain ⟨halive, hstep⟩ := manageStep_iff.mp hstep
  unfold aliveStep at hstep
  cases move with
  | service client size =>
      cases hstep
      exact h.of_same halive rfl rfl fun hnone hopen => ⟨hnone, hopen, rfl⟩
  | resized size =>
      cases hstep
      exact h.of_same halive rfl rfl fun hnone hopen => ⟨hnone, hopen, rfl⟩
  | arrives sig =>
      cases hstep
      exact exposed_deliver h.ignores h.unset
  | again =>
      dsimp only at hstep
      split at hstep
      · cases hstep
        exact h.of_same halive rfl rfl fun hnone hopen => ⟨hnone, hopen, rfl⟩
      · exact nomatch hstep
  | ok =>
      dsimp only at hstep
      cases htodo : w.todo with
      | nil => rw [htodo] at hstep; exact nomatch hstep
      | cons a rest => rw [htodo] at hstep; exact exposed_run hp h halive htodo hstep
  | fails =>
      dsimp only at hstep
      cases htodo : w.todo with
      | nil => rw [htodo] at hstep; exact nomatch hstep
      | cons a rest =>
          rw [htodo] at hstep
          cases hstep
          unfold Managing.failed
          cases w.ending with
          | none => exact h.of_same halive rfl rfl nofun
          | some ending => exact h.of_same halive rfl rfl nofun
  | polled events =>
      dsimp only at hstep
      split at hstep
      · cases hstep
        exact h.of_same halive rfl rfl fun hnone hopen => ⟨hnone, hopen, rfl⟩
      · exact nomatch hstep
  | copied result =>
      dsimp only at hstep
      split at hstep
      · split at hstep
        · exact nomatch hstep
        · split at hstep
          · cases hstep
            exact h.of_same halive rfl rfl nofun
          · cases hstep
            exact h.of_same halive rfl rfl fun hnone hopen => ⟨hnone, hopen, rfl⟩
          · cases hstep
            exact h.of_same halive rfl rfl nofun
      · exact nomatch hstep
  | took sig =>
      dsimp only at hstep
      split at hstep
      · obtain ⟨-, hw⟩ := Option.ite_none_right_eq_some.mp hstep
        cases hw
        exact h.of_same halive rfl rfl fun hnone hopen => ⟨hnone, hopen, rfl⟩
      · exact nomatch hstep

/-- Beamctl is only ended by a signal while its own mask is not in force. -/
theorem Exposed.unblocked (h : Exposed settings ignored w) (hg : Guarded settings sigmask w)
    {sig : TtySignal} (hkilled : w.killedBy = some sig) : w.signals = none := by
  by_contra hblocked
  obtain ⟨old, hold⟩ := Option.ne_none_iff_exists'.mp hblocked
  refine (h.killed sig hkilled).2.1 ?_
  rw [(hg.signals old hold).2]
  exact Finset.mem_union_right _ (signalNumber_mem sig)

end Exposed

section Runs

variable {settings client : Termios} {size clientSize : Winsize} {sigmask : Finset Int}
  {ignored : Finset TtySignal} {moves : List ManageMove} {w : Managing}

/-- The three invariants hold in every run. -/
theorem manage_run
    (hrun : Run ManageStep (.start settings client size clientSize sigmask ignored) moves w) :
    Placed w ∧ Guarded settings sigmask w ∧ Exposed settings ignored w :=
  hrun.invariant (I := fun w => Placed w ∧ Guarded settings sigmask w ∧ Exposed settings ignored w)
    (fun h hstep => ⟨placed_step h.1 hstep, guarded_step h.1 h.2.1 hstep,
      exposed_step h.1 h.2.2 hstep⟩)
    ⟨placed_start _ _ _ _ _ _, guarded_start _ _ _ _, rfl, nofun, fun _ _ => rfl⟩

/-- **HEADLINE.** Whenever `manage` returns, with whichever of its calls failing, the
    user's terminal and the signal mask are what they were.  One of the terminal's
    signals ends beamctl before that only if it is a SIGINT or SIGQUIT that was
    neither blocked nor ignored at the start, and then the terminal is what it was,
    unless the signal came between the two destructors on an error's way out, or a
    destructor's own call has failed. -/
theorem manage_restores
    (hrun : Run ManageStep (.start settings client size clientSize sigmask ignored) moves w) :
    ((w.ending = some .ok ∨ w.ending = some .error) → w.todo = [] →
        w.settings = settings ∧ w.sigmask = sigmask)
      ∧ ∀ sig, w.killedBy = some sig →
          (sig = .interrupt ∨ sig = .quit) ∧ signalNumber sig ∉ sigmask ∧ sig ∉ ignored
            ∧ (w.settings = settings ∨ w.ending = some .error ∧ .restoreTty ∈ w.todo
              ∨ w.ending = some .panicked) := by
  obtain ⟨hplaced, hguarded, hexposed⟩ := manage_run hrun
  refine ⟨fun hended hdone => ?_, fun sig hkilled => ?_⟩
  · have hsome : w.ending ≠ none ∧ w.ending ≠ some .panicked := by
      rcases hended with hended | hended <;> rw [hended] <;> exact ⟨nofun, nofun⟩
    obtain ⟨htty, hsignals⟩ := hplaced.drops hsome.1 hsome.2
    rw [hdone] at htty hsignals
    refine ⟨hguarded.closed ?_, hguarded.unblocked ?_⟩
    · by_contra hopen
      exact nomatch htty hopen
    · by_contra hblocked
      exact nomatch hsignals hblocked
  · have hopen := hexposed.unblocked hguarded hkilled
    obtain ⟨hsig, hmask, hignored⟩ := hexposed.killed sig hkilled
    rw [hguarded.unblocked hopen] at hmask
    refine ⟨hsig, hmask, hignored, ?_⟩
    cases hending : w.ending with
    | none => exact .inl (hexposed.unset hending hopen)
    | some ending =>
        cases ending with
        | ok => exact .inl (hguarded.closed ((hplaced.ordered hending).2 hopen))
        | panicked => exact .inr (.inr rfl)
        | error =>
            by_cases htty : w.tty = none
            · exact .inl (hguarded.closed htty)
            · exact .inr (.inl ⟨rfl,
                (hplaced.drops (by rw [hending]; exact nofun) (by rw [hending]; exact nofun)).1 htty⟩)

/-- A terminal that gathers lines and echoes them, and a PTY that does not. -/
def lineTerminal : Termios := ⟨ICRNL ||| IXON, OPOST ||| ONLCR, CS8, ISIG ||| ICANON ||| ECHO, 1, 0⟩

def rawTerminal : Termios := ⟨0, 0, CS8, 0, 1, 0⟩

/-- An attachment from a line terminal. -/
def lineStart : Managing := .start lineTerminal rawTerminal ⟨24, 80⟩ ⟨0, 0⟩ {10} ∅

/-- `manage` up to its first `poll`. -/
def toPoll : List ManageMove := List.replicate 16 .ok ++ .again :: List.replicate 5 .ok

/-- The user suspends it. -/
def suspended : List ManageMove :=
  toPoll ++ [.arrives .stop, .polled [.signalArrived], .took .stop, .ok, .ok, .ok, .ok]

/-- The first SIGINT cannot be forwarded, when a second one is pending. -/
def interrupted : List ManageMove :=
  toPoll ++ [.arrives .interrupt, .polled [.signalArrived], .took .interrupt,
    .arrives .interrupt, .fails, .ok]

/-- Restored when suspended; ended in between the destructors when interrupted. -/
theorem manage_restores_suspended :
    (∃ w : Managing, Run ManageStep lineStart suspended w
        ∧ w.settings = lineTerminal ∧ w.sigmask = {10})
      ∧ ∃ w : Managing, Run ManageStep lineStart interrupted w
        ∧ w.killedBy = some .interrupt ∧ w.settings ≠ lineTerminal
        ∧ w.ending = some .error ∧ .restoreTty ∈ w.todo := by
  constructor
  · have hrun : ((suspended.foldlM manageStep lineStart).map fun w => (w.ending, w.todo))
        = some (some .ok, []) := by decide
    obtain ⟨w, hrun, hw⟩ := Option.map_eq_some_iff.mp hrun
    obtain ⟨hended, hdone⟩ := Prod.mk.inj hw
    exact ⟨w, .of_foldlM hrun, (manage_restores (.of_foldlM hrun)).1 (.inl hended) hdone⟩
  · have hrun : ((interrupted.foldlM manageStep lineStart).map fun w =>
        (w.killedBy, w.ending, w.settings == lineTerminal))
        = some (some .interrupt, some .error, false) := by decide
    obtain ⟨w, hrun, hw⟩ := Option.map_eq_some_iff.mp hrun
    obtain ⟨hkilled, hw⟩ := Prod.mk.inj hw
    obtain ⟨hending, hsettings⟩ := Prod.mk.inj hw
    have hne : w.settings ≠ lineTerminal := ne_of_beq_false hsettings
    obtain ⟨-, -, -, heq | ⟨-, hleft⟩ | hpanic⟩ :=
      (manage_restores (.of_foldlM hrun)).2 .interrupt hkilled
    · exact absurd heq hne
    · exact ⟨w, .of_foldlM hrun, hkilled, hne, hending, hleft⟩
    · exact nomatch hending.symm.trans hpanic

/-- **HEADLINE.** While it waits for events and handles them, the user's terminal has
    the flags of the PTY as last read over its own settings from before, whatever it was
    set to in between: it keeps sending signals, and neither gathers lines nor echoes. -/
theorem attached_settings
    (hrun : Run ManageStep (.start settings client size clientSize sigmask ignored) moves w)
    (hrunning : w.ending = none) (hset : .setTty ∉ w.todo) :
    w.settings = settings.sync w.src ∧ w.sigmask = sigmask ∪ ttySignals
      ∧ w.settings.lflag &&& (ISIG ||| ICANON ||| ECHO) = ISIG := by
  obtain ⟨hplaced, hguarded, -⟩ := manage_run hrun
  have hcurrent := hguarded.current hrunning hset
  have hblock : .block ∉ w.todo := by
    have hprelude : ∀ todo ∈ prelude.tails, .setTty ∉ todo → .block ∉ todo := by decide
    have hloop : .block ∉ loopHead := by decide
    intro hmem
    rcases hplaced.ahead hrunning with hahead | hahead | hahead
    · exact hprelude _ hahead hset hmem
    · exact hloop (((List.mem_tails _ _).mp hahead).subset hmem)
    · exact nomatch hahead _ hmem
  obtain ⟨old, hold⟩ : ∃ old, w.signals = some old := by
    refine Option.ne_none_iff_exists'.mp fun hnone => ?_
    exact hblock ((hplaced.blocked hrunning).mp hnone)
  refine ⟨hcurrent, (hguarded.signals old hold).2, ?_⟩
  rw [hcurrent]
  exact sync_lflag settings w.src

theorem attached_settings_polling : ∃ w : Managing, Run ManageStep lineStart toPoll w
    ∧ w.todo = [.poll] ∧ w.settings = lineTerminal.sync w.src := by
  have hrun : ((toPoll.foldlM manageStep lineStart).map fun w => (w.ending, w.todo))
      = some (none, [.poll]) := by decide
  obtain ⟨w, hrun, hw⟩ := Option.map_eq_some_iff.mp hrun
  obtain ⟨hrunning, htodo⟩ := Prod.mk.inj hw
  have hset : .setTty ∉ w.todo := by
    rw [htodo]
    decide
  exact ⟨w, .of_foldlM hrun, htodo, (attached_settings (.of_foldlM hrun) hrunning hset).1⟩

end Runs

end BeamTerminalSettings
