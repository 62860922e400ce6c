import BeamInit.Logs
import BeamInit.Runs
import BeamInit.Segments
import BeamInit.Text

/-! # Log writers — one pipe and one task for each incarnation

    A start of a service makes a log pipe and a task that reads it, and aborts the
    task of the pipe before.  The pipe is held by the main process and by whom it
    passes it to; the task takes the pipe in chunks, splits them into lines and
    pushes these.  Writes, exits and tasks are interleaved in any order. -/

namespace BeamLogWriters

open BeamApi BeamOs BeamLogs Runs Segments

/-! ## Lines -/

def newline : UInt8 := 10

/-- `is_filtered_control`. -/
def isFilteredControl (ch : Char) : Bool := Text.isControl ch && !"\n\t".toList.contains ch

def sanitizeChar (ch : Char) : Char :=
  if isFilteredControl ch = false then ch
  else if ch.toNat < 0x20 then Char.ofNat (ch.toNat + 0x2400)
  else '⍰'

/-- What a control character is replaced by is none. -/
theorem isFilteredControl_sanitizeChar (ch : Char) : isFilteredControl (sanitizeChar ch) = false := by
  have hpicture : ∀ n < 0x20, isFilteredControl (Char.ofNat (n + 0x2400)) = false := by decide
  rw [sanitizeChar]
  split
  · assumption
  · split
    · exact hpicture _ (by assumption)
    · decide

/-- `sanitize`, for the decoder `String::from_utf8_lossy`. -/
def sanitize (fromUtf8Lossy : List UInt8 → List Char) (line : List UInt8) : String :=
  String.ofList ((fromUtf8Lossy line).map sanitizeChar)

/-- No control character is left, except newlines and tabs. -/
theorem sanitize_clean (fromUtf8Lossy : List UInt8 → List Char) (line : List UInt8) :
    ∀ ch ∈ (sanitize fromUtf8Lossy line).toList, isFilteredControl ch = false := by
  intro ch hmem
  rw [sanitize, String.toList_ofList] at hmem
  obtain ⟨ch₀, -, rfl⟩ := List.mem_map.mp hmem
  exact isFilteredControl_sanitizeChar ch₀

/-! ## Pipes, tasks and incarnations -/

/-- The log pipe of one incarnation. -/
structure LogPipe where
  /-- What was written to it, and what of that is still in the pipe. -/
  written : List UInt8
  unread : List UInt8
  /-- Some process has the writing end. -/
  held : Bool
  /-- What had been written when the main process exited. -/
  early : List UInt8
deriving DecidableEq

/-- Where the task of `new_writer` is. -/
inductive WriterPoint where
  /-- At `lines.next_segment().await`. -/
  | reading
  /-- At `queue.push(line).await`. -/
  | pushing (line : List UInt8)
  /-- At the push of `[log stream closed]`. -/
  | closing
deriving DecidableEq

structure WriterTask where
  incarnation : Nat
  /-- What was read and is not part of a line yet. -/
  buffer : List UInt8
  point : WriterPoint
deriving DecidableEq

inductive MainProcess where
  /-- Not started, or reaped. -/
  | none
  | running
  | exited
deriving DecidableEq

/-- The logs of one service.  Its incarnations are counted from 1. -/
structure WriterWorld where
  logs : Logs
  tasks : AbortHandle → Option WriterTask
  pipes : Nat → LogPipe
  latest : Nat
  main : MainProcess
  /-- The lines taken from pipes and pushed, with the incarnation. -/
  pushed : List (Nat × List UInt8)

namespace WriterWorld

def new (capacity : NonZeroUsize) : WriterWorld where
  logs := Logs.new capacity
  tasks _ := none
  pipes _ := ⟨[], [], false, []⟩
  latest := 0
  main := .none
  pushed := []

def setTask (w : WriterWorld) (handle : AbortHandle) (task : Option WriterTask) : WriterWorld :=
  { w with tasks := Function.update w.tasks handle task }

def setPipe (w : WriterWorld) (incarnation : Nat) (pipe : LogPipe) : WriterWorld :=
  { w with pipes := Function.update w.pipes incarnation pipe }

/-- `handle.abort()` of a task that does not run: it is dropped. -/
def abort (w : WriterWorld) : Option AbortHandle → WriterWorld
  | none => w
  | some handle => w.setTask handle none

/-- `new_writer`, and what becomes of the writing end: a process that is spawned
    gets it, and otherwise it is dropped. -/
def start (w : WriterWorld) (handle : AbortHandle) (spawned : Bool) : WriterWorld :=
  match w.logs.newWriter (.ok handle) with
  | .error _ => w
  | .ok (logs, old, handle) =>
      { ((w.abort old).setTask handle (some ⟨w.latest + 1, [], .reading⟩)).setPipe (w.latest + 1)
          ⟨[], [], spawned, []⟩ with
        logs := logs
        latest := w.latest + 1
        main := if spawned then .running else .none }

/-- The lines of an incarnation that were pushed. -/
def linesOf (w : WriterWorld) (incarnation : Nat) : List (List UInt8) :=
  (w.pushed.filter (fun line => line.1 = incarnation)).map Prod.snd

end WriterWorld

inductive WriterMove where
  | started (handle : AbortHandle) (spawned : Bool)
  | wrote (bytes : List UInt8)
  | exited
  /-- No process has the writing end any more. -/
  | closed
  /-- `handle_signal` reaps the main process. -/
  | reaped
  | filled (handle : AbortHandle) (n : Nat)
  | segmented (handle : AbortHandle) (line : List UInt8)
  | lastSegment (handle : AbortHandle)
  | ended (handle : AbortHandle)
  | pushed (handle : AbortHandle)
  | finished (handle : AbortHandle)
  /-- Another task pushes a message. -/
  | message (text : String)

/-- One step of the processes, of `handle_signal` or of a writer task.  Once its
    reading end is dropped, a write to a pipe fails and changes nothing. -/
inductive WriterStep (fromUtf8Lossy : List UInt8 → List Char) :
    WriterWorld → WriterMove → WriterWorld → Prop where
  | started {w : WriterWorld} {handle : AbortHandle} {spawned : Bool} :
      w.main = .none → w.tasks handle = none →
      WriterStep fromUtf8Lossy w (.started handle spawned) (w.start handle spawned)
  | wrote {w : WriterWorld} {bytes : List UInt8} : (w.pipes w.latest).held = true →
      WriterStep fromUtf8Lossy w (.wrote bytes) (w.setPipe w.latest { w.pipes w.latest with
        written := (w.pipes w.latest).written ++ bytes
        unread := (w.pipes w.latest).unread ++ bytes })
  | exited {w : WriterWorld} : w.main = .running →
      WriterStep fromUtf8Lossy w .exited { w.setPipe w.latest { w.pipes w.latest with
        early := (w.pipes w.latest).written } with main := .exited }
  | closed {w : WriterWorld} :
      WriterStep fromUtf8Lossy w .closed (w.setPipe w.latest { w.pipes w.latest with held := false })
  | reaped {w : WriterWorld} : w.main = .exited →
      WriterStep fromUtf8Lossy w .reaped { w with main := .none }
  | filled {w : WriterWorld} {handle : AbortHandle} {task : WriterTask} {n : Nat} :
      w.tasks handle = some task → task.point = .reading → newline ∉ task.buffer →
      0 < n → n ≤ (w.pipes task.incarnation).unread.length →
      WriterStep fromUtf8Lossy w (.filled handle n)
        ((w.setPipe task.incarnation { w.pipes task.incarnation with
          unread := (w.pipes task.incarnation).unread.drop n }).setTask handle (some { task with
            buffer := task.buffer ++ (w.pipes task.incarnation).unread.take n }))
  | segmented {w : WriterWorld} {handle : AbortHandle} {task : WriterTask}
      {line rest : List UInt8} :
      w.tasks handle = some task → task.point = .reading → newline ∉ line →
      task.buffer = line ++ newline :: rest →
      WriterStep fromUtf8Lossy w (.segmented handle line)
        (w.setTask handle (some { task with buffer := rest, point := .pushing line }))
  | lastSegment {w : WriterWorld} {handle : AbortHandle} {task : WriterTask} :
      w.tasks handle = some task → task.point = .reading → newline ∉ task.buffer →
      task.buffer ≠ [] → (w.pipes task.incarnation).unread = [] →
      (w.pipes task.incarnation).held = false →
      WriterStep fromUtf8Lossy w (.lastSegment handle)
        (w.setTask handle (some { task with buffer := [], point := .pushing task.buffer }))
  | ended {w : WriterWorld} {handle : AbortHandle} {task : WriterTask} :
      w.tasks handle = some task → task.point = .reading → task.buffer = [] →
      (w.pipes task.incarnation).unread = [] → (w.pipes task.incarnation).held = false →
      WriterStep fromUtf8Lossy w (.ended handle)
        (w.setTask handle (some { task with point := .closing }))
  | pushed {w : WriterWorld} {handle : AbortHandle} {task : WriterTask} {line : List UInt8} :
      w.tasks handle = some task → task.point = .pushing line →
      WriterStep fromUtf8Lossy w (.pushed handle)
        { w.setTask handle (some { task with point := .reading }) with
          logs := w.logs.push (sanitize fromUtf8Lossy line)
          pushed := w.pushed ++ [(task.incarnation, line)] }
  | finished {w : WriterWorld} {handle : AbortHandle} {task : WriterTask} :
      w.tasks handle = some task → task.point = .closing →
      WriterStep fromUtf8Lossy w (.finished handle)
        { w.setTask handle none with logs := w.logs.push "[log stream closed]" }
  | message {w : WriterWorld} {text : String} :
      WriterStep fromUtf8Lossy w (.message text) { w with logs := w.logs.push text }

/-! ## What a task has taken of its pipe -/

def WriterPoint.inHand : WriterPoint → List (List UInt8)
  | .pushing line => [line]
  | .reading | .closing => []

/-- The pipe of a task, the lines it has pushed, and where it is. -/
inductive Progress (pipe : LogPipe) (lines : List (List UInt8)) (task : WriterTask) : Prop where
  /-- It has taken whole lines. -/
  | inside {taken : List UInt8} : task.point ≠ .closing →
      pipe.written = taken ++ (task.buffer ++ pipe.unread) →
      split newline taken = (lines ++ task.point.inHand, []) → Progress pipe lines task
  /-- It has taken everything, and the pipe is at its end. -/
  | atEnd : pipe.held = false → task.buffer = [] → pipe.unread = [] →
      segments newline pipe.written = lines ++ task.point.inHand → Progress pipe lines task

/-- What is written is pushed, or the task still has it. -/
theorem Progress.segments_eq {pipe : LogPipe} {lines : List (List UInt8)} {task : WriterTask}
    (h : Progress pipe lines task) :
    segments newline pipe.written
      = lines ++ task.point.inHand ++ segments newline (task.buffer ++ pipe.unread) := by
  cases h with
  | inside _ hwritten htaken =>
      rw [hwritten, segments_append (congrArg Prod.snd htaken), htaken]
  | atEnd _ hbuffer hunread hsegments =>
      rw [hsegments, hbuffer, hunread]
      exact (List.append_nil _).symm

/-- Reading the pipe moves bytes into the buffer. -/
theorem Progress.fill {pipe : LogPipe} {lines : List (List UInt8)} {task : WriterTask} {n : Nat}
    (h : Progress pipe lines task) (hpos : 0 < n) (hle : n ≤ pipe.unread.length) :
    Progress { pipe with unread := pipe.unread.drop n } lines
      { task with buffer := task.buffer ++ pipe.unread.take n } := by
  cases h with
  | inside hpoint hwritten htaken =>
      refine .inside hpoint ?_ htaken
      show pipe.written = _ ++ ((task.buffer ++ pipe.unread.take n) ++ pipe.unread.drop n)
      rw [List.append_assoc, List.take_append_drop]
      exact hwritten
  | atEnd _ _ hunread _ =>
      rw [hunread] at hle
      exact absurd hle (Nat.not_le_of_lt hpos)

/-- A complete line is taken off the buffer. -/
theorem Progress.segment {pipe : LogPipe} {lines : List (List UInt8)} {task : WriterTask}
    {line rest : List UInt8} (h : Progress pipe lines task) (hpoint : task.point = .reading)
    (hline : newline ∉ line) (hbuffer : task.buffer = line ++ newline :: rest) :
    Progress pipe lines { task with buffer := rest, point := .pushing line } := by
  cases h with
  | @inside taken _ hwritten htaken =>
      have hpiece : split newline (line ++ [newline]) = ([line], []) := split_piece hline []
      have hmore : split newline (taken ++ (line ++ [newline])) = (lines ++ [line], []) := by
        rw [split_append (congrArg Prod.snd htaken), htaken, hpiece, hpoint]
        exact congrArg (·, _) (congrArg (· ++ _) (List.append_nil _))
      refine .inside nofun ?_ hmore
      rw [hwritten, hbuffer]
      simp only [List.append_assoc, List.cons_append, List.nil_append]
  | atEnd _ hempty _ _ =>
      rw [hempty] at hbuffer
      exact absurd hbuffer.symm (List.append_ne_nil_of_right_ne_nil _ (List.cons_ne_nil _ _))

/-- At the end of the pipe the rest of the buffer is the last line. -/
theorem Progress.last {pipe : LogPipe} {lines : List (List UInt8)} {task : WriterTask}
    (h : Progress pipe lines task) (hpoint : task.point = .reading)
    (hbuffer : newline ∉ task.buffer) (hne : task.buffer ≠ []) (hunread : pipe.unread = [])
    (hheld : pipe.held = false) :
    Progress pipe lines { task with buffer := [], point := .pushing task.buffer } := by
  refine .atEnd hheld rfl hunread ?_
  rw [h.segments_eq, hpoint, hunread, List.append_nil, segments_of_not_mem hbuffer hne]
  exact congrArg (· ++ _) (List.append_nil _)

/-- With the pipe and the buffer empty the task is about to end. -/
theorem Progress.finish {pipe : LogPipe} {lines : List (List UInt8)} {task : WriterTask}
    (h : Progress pipe lines task) (hpoint : task.point = .reading) (hbuffer : task.buffer = [])
    (hunread : pipe.unread = []) (hheld : pipe.held = false) :
    Progress pipe lines { task with point := .closing } := by
  refine .atEnd hheld hbuffer hunread ?_
  rw [h.segments_eq, hpoint, hbuffer, hunread]
  exact List.append_nil _

/-- The line in hand is pushed behind those before it. -/
theorem Progress.push {pipe : LogPipe} {lines : List (List UInt8)} {task : WriterTask}
    {line : List UInt8} (h : Progress pipe lines task) (hpoint : task.point = .pushing line) :
    Progress pipe (lines ++ [line]) { task with point := .reading } := by
  have hhand : (lines ++ [line]) ++ WriterPoint.reading.inHand = lines ++ task.point.inHand := by
    rw [hpoint]
    exact List.append_nil _
  cases h with
  | inside _ hwritten htaken => exact .inside nofun hwritten (htaken.trans (by rw [hhand]))
  | atEnd hheld hbuffer hunread hsegments =>
      exact .atEnd hheld hbuffer hunread (hsegments.trans hhand.symm)

/-- A pipe that is written to is not at its end. -/
theorem Progress.write {pipe : LogPipe} {lines : List (List UInt8)} {task : WriterTask}
    (h : Progress pipe lines task) (hheld : pipe.held = true) (bytes : List UInt8) :
    Progress { pipe with written := pipe.written ++ bytes, unread := pipe.unread ++ bytes }
      lines task := by
  cases h with
  | inside hpoint hwritten htaken =>
      refine .inside hpoint ?_ htaken
      show pipe.written ++ bytes = _ ++ (task.buffer ++ (pipe.unread ++ bytes))
      rw [hwritten]
      simp only [List.append_assoc]
  | atEnd hclosed _ _ _ => exact absurd (hclosed.symm.trans hheld) Bool.false_ne_true

theorem Progress.close {pipe : LogPipe} {lines : List (List UInt8)} {task : WriterTask}
    (h : Progress pipe lines task) : Progress { pipe with held := false } lines task := by
  cases h with
  | inside hpoint hwritten htaken => exact .inside hpoint hwritten htaken
  | atEnd _ hbuffer hunread hsegments => exact .atEnd rfl hbuffer hunread hsegments

theorem Progress.mark {pipe : LogPipe} {lines : List (List UInt8)} {task : WriterTask}
    (h : Progress pipe lines task) (early : List UInt8) :
    Progress { pipe with early := early } lines task := by
  cases h with
  | inside hpoint hwritten htaken => exact .inside hpoint hwritten htaken
  | atEnd hheld hbuffer hunread hsegments => exact .atEnd hheld hbuffer hunread hsegments

/-- A task that has come to the end has pushed all lines. -/
theorem Progress.all_pushed {pipe : LogPipe} {lines : List (List UInt8)} {task : WriterTask}
    (h : Progress pipe lines task) (hpoint : task.point = .closing) :
    pipe.held = false ∧ segments newline pipe.written = lines := by
  cases h with
  | inside hne _ _ => exact absurd hpoint hne
  | atEnd hheld _ _ hsegments =>
      rw [hpoint] at hsegments
      exact ⟨hheld, hsegments.trans (List.append_nil _)⟩

/-! ## One writer for a service -/

/-- Only the task of the latest incarnation is alive; the lines of the incarnations do not
    mix, and those of each are the first of its pipe. -/
structure Sound (w : WriterWorld) : Prop where
  single : ∀ handle task, w.tasks handle = some task →
    w.logs.abortHandle = some handle ∧ task.incarnation = w.latest
  progress : ∀ handle task, w.tasks handle = some task →
    Progress (w.pipes w.latest) (w.linesOf w.latest) task
  idle : (∀ handle, w.tasks handle = none) → (w.pipes w.latest).held = false
    ∧ segments newline (w.pipes w.latest).written = w.linesOf w.latest
  ordered : w.pushed.Pairwise (fun line line' => line.1 ≤ line'.1)
  known : ∀ line ∈ w.pushed, line.1 ≤ w.latest
  older : ∀ k < w.latest, w.linesOf k <+: segments newline (w.pipes k).written
  early : ∀ k, (w.pipes k).early <+: (w.pipes k).written

/-- A new log has no task and no lines. -/
theorem sound_new (capacity : NonZeroUsize) : Sound (.new capacity) where
  single _ _ h := nomatch h
  progress _ _ h := nomatch h
  idle _ := ⟨rfl, rfl⟩
  ordered := .nil
  known _ h := absurd h List.not_mem_nil
  older _ h := absurd h (Nat.not_lt_zero _)
  early _ := List.nil_prefix

/-- The lines of the latest incarnation are the first of its pipe. -/
theorem Sound.latest_isPrefix {w : WriterWorld} (h : Sound w) :
    w.linesOf w.latest <+: segments newline (w.pipes w.latest).written := by
  by_cases hnone : ∀ handle, w.tasks handle = none
  · rw [(h.idle hnone).2]
  · obtain ⟨handle, hne⟩ := not_forall.mp hnone
    obtain ⟨task, htask⟩ := Option.ne_none_iff_exists'.mp hne
    rw [(h.progress handle task htask).segments_eq, List.append_assoc]
    exact List.prefix_append _ _

/-- No other task is alive. -/
theorem Sound.other_none {w : WriterWorld} {handle handle' : AbortHandle} {task : WriterTask}
    (h : Sound w) (htask : w.tasks handle = some task) (hne : handle' ≠ handle) :
    w.tasks handle' = none := by
  cases htask' : w.tasks handle' with
  | none => rfl
  | some task' =>
      have heq := (h.single handle' task' htask').1.symm.trans (h.single handle task htask).1
      exact absurd (Option.some.inj heq) hne

/-- No line of a later incarnation has been pushed. -/
theorem Sound.linesOf_later {w : WriterWorld} {k : Nat} (h : Sound w) (hk : w.latest < k) :
    w.linesOf k = [] := by
  rw [WriterWorld.linesOf, List.filter_eq_nil_iff.mpr]
  · rfl
  · intro line hline heq
    have hle := h.known line hline
    rw [of_decide_eq_true heq] at hle
    exact absurd hk (Nat.not_lt_of_le hle)

/-- The latest pipe changes, and nothing else. -/
theorem sound_setPipe {w : WriterWorld} {pipe : LogPipe} (h : Sound w)
    (hprogress : ∀ task, Progress (w.pipes w.latest) (w.linesOf w.latest) task →
      Progress pipe (w.linesOf w.latest) task)
    (hidle : (w.pipes w.latest).held = false → pipe.held = false
      ∧ pipe.written = (w.pipes w.latest).written)
    (hearly : pipe.early <+: pipe.written) : Sound (w.setPipe w.latest pipe) where
  single := h.single
  progress handle task htask := by
    show Progress (Function.update w.pipes w.latest pipe w.latest) _ task
    rw [Function.update_self]
    exact hprogress task (h.progress handle task htask)
  idle hnone := by
    obtain ⟨hheld, hsegments⟩ := h.idle hnone
    obtain ⟨hheld', hwritten⟩ := hidle hheld
    show (Function.update w.pipes w.latest pipe w.latest).held = false ∧ segments newline
      (Function.update w.pipes w.latest pipe w.latest).written = _
    rw [Function.update_self, hwritten]
    exact ⟨hheld', hsegments⟩
  ordered := h.ordered
  known := h.known
  older k hk := by
    show _ <+: segments newline (Function.update w.pipes w.latest pipe k).written
    have hne : k ≠ w.latest := Nat.ne_of_lt hk
    rw [Function.update_of_ne hne]
    exact h.older k hk
  early k := by
    show (Function.update w.pipes w.latest pipe k).early
      <+: (Function.update w.pipes w.latest pipe k).written
    by_cases hk : k = w.latest
    · rw [hk, Function.update_self]
      exact hearly
    · rw [Function.update_of_ne hk]
      exact h.early k

/-- The task of the latest incarnation is the only one that can be alive. -/
theorem task_of_setTask {w : WriterWorld} {handle i : AbortHandle} {task t : WriterTask}
    {task' : Option WriterTask} (h : Sound w) (htask : w.tasks handle = some task)
    (ht : Function.update w.tasks handle task' i = some t) : i = handle ∧ task' = some t := by
  by_cases hi : i = handle
  · rw [hi, Function.update_self] at ht
    exact ⟨hi, ht⟩
  · rw [Function.update_of_ne hi, h.other_none htask hi] at ht
    cases ht

/-- The task goes on, and pushes or takes from its pipe. -/
theorem sound_advance {w w' : WriterWorld} {handle : AbortHandle} {task task' : WriterTask}
    (h : Sound w) (htask : w.tasks handle = some task)
    (htasks : w'.tasks = Function.update w.tasks handle (some task'))
    (hincarnation : task'.incarnation = task.incarnation)
    (hlogs : w'.logs.abortHandle = w.logs.abortHandle) (hlatest : w'.latest = w.latest)
    (hprogress : Progress (w'.pipes w.latest) (w'.linesOf w.latest) task')
    (hpipes : ∀ k, (w'.pipes k).written = (w.pipes k).written
      ∧ (w'.pipes k).early = (w.pipes k).early)
    (hlines : ∀ k < w.latest, w'.linesOf k = w.linesOf k)
    (hordered : w'.pushed.Pairwise (fun line line' => line.1 ≤ line'.1))
    (hknown : ∀ line ∈ w'.pushed, line.1 ≤ w.latest) : Sound w' where
  single i t ht := by
    rw [htasks] at ht
    obtain ⟨rfl, heq⟩ := task_of_setTask h htask ht
    rw [hlogs, hlatest, ← Option.some.inj heq, hincarnation]
    exact h.single i task htask
  progress i t ht := by
    rw [htasks] at ht
    obtain ⟨rfl, heq⟩ := task_of_setTask h htask ht
    rw [hlatest, ← Option.some.inj heq]
    exact hprogress
  idle hnone := by
    have hsome := hnone handle
    rw [htasks, Function.update_self] at hsome
    cases hsome
  ordered := hordered
  known := by
    rw [hlatest]
    exact hknown
  older k hk := by
    rw [hlatest] at hk
    rw [hlines k hk, (hpipes k).1]
    exact h.older k hk
  early k := by
    rw [(hpipes k).1, (hpipes k).2]
    exact h.early k

/-- The task goes on, and nothing else changes. -/
theorem sound_setTask {w : WriterWorld} {handle : AbortHandle} {task task' : WriterTask}
    (h : Sound w) (htask : w.tasks handle = some task)
    (hincarnation : task'.incarnation = task.incarnation)
    (hprogress : Progress (w.pipes w.latest) (w.linesOf w.latest) task') :
    Sound (w.setTask handle (some task')) :=
  sound_advance h htask rfl hincarnation rfl rfl hprogress (fun _ => ⟨rfl, rfl⟩) (fun _ _ => rfl)
    h.ordered h.known

/-- Filling the buffer keeps the invariant. -/
theorem sound_filled {w : WriterWorld} {handle : AbortHandle} {task : WriterTask} {n : Nat}
    (h : Sound w) (htask : w.tasks handle = some task) (hpos : 0 < n)
    (hle : n ≤ (w.pipes w.latest).unread.length) :
    Sound ((w.setPipe w.latest { w.pipes w.latest with
        unread := (w.pipes w.latest).unread.drop n }).setTask handle (some { task with
          buffer := task.buffer ++ (w.pipes w.latest).unread.take n })) := by
  refine sound_advance h htask rfl rfl rfl rfl ?_ (fun k => ?_) (fun _ _ => rfl) h.ordered h.known
  · show Progress (Function.update w.pipes w.latest _ w.latest) _ _
    rw [Function.update_self]
    exact (h.progress handle task htask).fill hpos hle
  · show (Function.update w.pipes w.latest _ k).written = _
      ∧ (Function.update w.pipes w.latest _ k).early = _
    by_cases hk : k = w.latest
    · rw [hk, Function.update_self]
      exact ⟨rfl, rfl⟩
    · rw [Function.update_of_ne hk]
      exact ⟨rfl, rfl⟩

/-- A line that is pushed is one of its own incarnation. -/
theorem linesOf_pushed (k incarnation : Nat) (line : List UInt8)
    (pushed : List (Nat × List UInt8)) :
    ((pushed ++ [(incarnation, line)]).filter (fun l => l.1 = k)).map Prod.snd
      = (pushed.filter (fun l => l.1 = k)).map Prod.snd
        ++ if incarnation = k then [line] else [] := by
  rw [List.filter_append, List.map_append, List.filter_cons]
  by_cases hk : incarnation = k
  · rw [if_pos hk, if_pos (decide_eq_true hk)]
    rfl
  · rw [if_neg hk, if_neg (by rw [decide_eq_true_eq]; exact hk)]
    rfl

/-- Pushing the line in hand keeps the invariant. -/
theorem sound_pushed {w : WriterWorld} {handle : AbortHandle} {task : WriterTask}
    {line : List UInt8} {text : String} (h : Sound w) (htask : w.tasks handle = some task)
    (hpoint : task.point = .pushing line) :
    Sound { w.setTask handle (some { task with point := .reading }) with
      logs := w.logs.push text
      pushed := w.pushed ++ [(task.incarnation, line)] } := by
  have hincarnation := (h.single handle task htask).2
  refine sound_advance h htask rfl rfl rfl rfl ?_ (fun _ => ⟨rfl, rfl⟩) (fun k hk => ?_) ?_ ?_
  · show Progress _ (((w.pushed ++ [(task.incarnation, line)]).filter _).map _) _
    rw [linesOf_pushed, if_pos hincarnation]
    exact (h.progress handle task htask).push hpoint
  · show ((w.pushed ++ [(task.incarnation, line)]).filter _).map _ = _
    rw [linesOf_pushed, if_neg (by rw [hincarnation]; exact Nat.ne_of_gt hk), List.append_nil]
    rfl
  · refine List.pairwise_append.mpr ⟨h.ordered, List.pairwise_singleton _ _, ?_⟩
    intro l hl l' hl'
    rw [List.mem_singleton.mp hl', hincarnation]
    exact h.known l hl
  · intro l hl
    rcases List.mem_append.mp hl with hl | hl
    · exact h.known l hl
    · rw [List.mem_singleton.mp hl]
      exact hincarnation.le

/-! ## A start -/

/-- `abort` stops a task and changes nothing else. -/
theorem abort_frame (w : WriterWorld) (old : Option AbortHandle) :
    (w.abort old).pipes = w.pipes ∧ (w.abort old).pushed = w.pushed := by
  cases old <;> exact ⟨rfl, rfl⟩

/-- **The abort of a start leaves no task.** -/
theorem Sound.abort_tasks {w : WriterWorld} (h : Sound w) (handle : AbortHandle) :
    (w.abort w.logs.abortHandle).tasks handle = none := by
  cases htask : (w.abort w.logs.abortHandle).tasks handle with
  | none => rfl
  | some task =>
      cases hold : w.logs.abortHandle with
      | none =>
          rw [hold] at htask
          have hsome := (h.single handle task htask).1
          rw [hold] at hsome
          cases hsome
      | some old =>
          rw [hold] at htask
          change Function.update w.tasks old none handle = some task at htask
          by_cases hne : handle = old
          · rw [hne, Function.update_self] at htask
            cases htask
          · rw [Function.update_of_ne hne] at htask
            have hsome := (h.single handle task htask).1
            rw [hold] at hsome
            exact absurd (Option.some.inj hsome).symm hne

/-- A start makes a new pipe. -/
theorem start_pipes (w : WriterWorld) (handle : AbortHandle) (spawned : Bool) :
    (w.start handle spawned).pipes
      = Function.update w.pipes (w.latest + 1) ⟨[], [], spawned, []⟩ := by
  show Function.update (w.abort w.logs.abortHandle).pipes _ _ = _
  rw [(abort_frame w _).1]

theorem start_pushed (w : WriterWorld) (handle : AbortHandle) (spawned : Bool) :
    (w.start handle spawned).pushed = w.pushed :=
  (abort_frame w _).2

/-- A start pushes no line. -/
theorem start_linesOf (w : WriterWorld) (handle : AbortHandle) (spawned : Bool) (k : Nat) :
    (w.start handle spawned).linesOf k = w.linesOf k := by
  rw [WriterWorld.linesOf, start_pushed]
  rfl

/-- A start keeps the invariant: it aborts the task of the incarnation before. -/
theorem sound_start {w : WriterWorld} {handle : AbortHandle} {spawned : Bool} (h : Sound w) :
    Sound (w.start handle spawned) := by
  have htasks : ∀ i t, (w.start handle spawned).tasks i = some t →
      i = handle ∧ t = ⟨w.latest + 1, [], .reading⟩ := by
    intro i t ht
    change Function.update (w.abort w.logs.abortHandle).tasks handle _ i = some t at ht
    by_cases hi : i = handle
    · rw [hi, Function.update_self] at ht
      exact ⟨hi, (Option.some.inj ht).symm⟩
    · rw [Function.update_of_ne hi, h.abort_tasks] at ht
      cases ht
  have hself : (w.start handle spawned).pipes (w.latest + 1) = ⟨[], [], spawned, []⟩ := by
    rw [start_pipes, Function.update_self]
  have hother : ∀ k, k ≠ w.latest + 1 → (w.start handle spawned).pipes k = w.pipes k := by
    intro k hk
    rw [start_pipes, Function.update_of_ne hk]
  constructor
  · intro i t ht
    obtain ⟨rfl, rfl⟩ := htasks i t ht
    exact ⟨rfl, rfl⟩
  · intro i t ht
    obtain ⟨rfl, rfl⟩ := htasks i t ht
    show Progress ((w.start i spawned).pipes (w.latest + 1))
      ((w.start i spawned).linesOf (w.latest + 1)) _
    rw [hself, start_linesOf, h.linesOf_later (Nat.lt_succ_self _)]
    have hnothing : split newline [] = ([], []) := rfl
    exact .inside nofun rfl hnothing
  · intro hnone
    have hsome := hnone handle
    change Function.update (w.abort w.logs.abortHandle).tasks handle _ handle = none at hsome
    rw [Function.update_self] at hsome
    cases hsome
  · rw [start_pushed]
    exact h.ordered
  · rw [start_pushed]
    exact fun line hline => Nat.le_succ_of_le (h.known line hline)
  · intro k hk
    rw [start_linesOf, hother k (Nat.ne_of_lt hk)]
    rcases Nat.lt_or_eq_of_le (Nat.le_of_lt_succ hk) with hlt | heq
    · exact h.older k hlt
    · rw [heq]
      exact h.latest_isPrefix
  · intro k
    by_cases hk : k = w.latest + 1
    · rw [hk, hself]
    · rw [hother k hk]
      exact h.early k

/-! ## The step lemmas -/

variable {fromUtf8Lossy : List UInt8 → List Char}

/-- The end of a task keeps the invariant. -/
theorem sound_finished {w : WriterWorld} {handle : AbortHandle} {task : WriterTask}
    {text : String} (h : Sound w) (htask : w.tasks handle = some task)
    (hpoint : task.point = .closing) :
    Sound { w.setTask handle none with logs := w.logs.push text } where
  single _ _ ht := nomatch (task_of_setTask h htask ht).2
  progress _ _ ht := nomatch (task_of_setTask h htask ht).2
  idle _ := (h.progress handle task htask).all_pushed hpoint
  ordered := h.ordered
  known := h.known
  older := h.older
  early := h.early

/-- **Every step** keeps the invariant. -/
theorem sound_step {w w' : WriterWorld} {m : WriterMove} (h : Sound w)
    (hst : WriterStep fromUtf8Lossy w m w') : Sound w' := by
  cases hst with
  | started => exact sound_start h
  | wrote hheld =>
      refine sound_setPipe h (fun task hp => hp.write hheld _) (fun hclosed => ?_) ?_
      · exact absurd (hclosed.symm.trans hheld) Bool.false_ne_true
      · exact (h.early w.latest).trans (List.prefix_append _ _)
  | exited =>
      have hmarked := sound_setPipe h (fun task hp => hp.mark (w.pipes w.latest).written)
        (fun hheld => ⟨hheld, rfl⟩) (List.prefix_refl _)
      exact { hmarked with }
  | closed => exact sound_setPipe h (fun task hp => hp.close) (fun _ => ⟨rfl, rfl⟩) (h.early _)
  | reaped => exact { h with }
  | @filled handle task n htask hpoint hbuffer hpos hle =>
      rcases task with ⟨incarnation, buffer, point⟩
      obtain rfl : incarnation = w.latest := (h.single _ _ htask).2
      exact sound_filled h htask hpos hle
  | segmented htask hpoint hline hbuffer =>
      exact sound_setTask h htask rfl ((h.progress _ _ htask).segment hpoint hline hbuffer)
  | lastSegment htask hpoint hbuffer hne hunread hheld =>
      rw [(h.single _ _ htask).2] at hunread hheld
      exact sound_setTask h htask rfl
        ((h.progress _ _ htask).last hpoint hbuffer hne hunread hheld)
  | ended htask hpoint hbuffer hunread hheld =>
      rw [(h.single _ _ htask).2] at hunread hheld
      exact sound_setTask h htask rfl ((h.progress _ _ htask).finish hpoint hbuffer hunread hheld)
  | pushed htask hpoint => exact sound_pushed h htask hpoint
  | finished htask hpoint => exact sound_finished h htask hpoint
  | message => exact { h with }

/-- Only a start makes an incarnation an older one, and nothing is pushed for those. -/
theorem step_older {w w' : WriterWorld} {m : WriterMove} (h : Sound w)
    (hst : WriterStep fromUtf8Lossy w m w') :
    (∃ handle spawned, m = .started handle spawned ∧ w' = w.start handle spawned)
      ∨ w'.latest = w.latest ∧ ∀ k < w.latest, (w'.pipes k).early = (w.pipes k).early
          ∧ w'.linesOf k = w.linesOf k := by
  have hpipe : ∀ {k : Nat} (pipe : LogPipe), k < w.latest →
      (Function.update w.pipes w.latest pipe k).early = (w.pipes k).early := by
    intro k pipe hk
    rw [Function.update_of_ne (Nat.ne_of_lt hk)]
  cases hst with
  | started => exact .inl ⟨_, _, rfl, rfl⟩
  | wrote | exited | closed => exact .inr ⟨rfl, fun k hk => ⟨hpipe _ hk, rfl⟩⟩
  | reaped | segmented | lastSegment | ended | finished | message =>
      exact .inr ⟨rfl, fun k _ => ⟨rfl, rfl⟩⟩
  | filled htask =>
      rw [(h.single _ _ htask).2]
      exact .inr ⟨rfl, fun k hk => ⟨hpipe _ hk, rfl⟩⟩
  | pushed htask =>
      refine .inr ⟨rfl, fun k hk => ⟨rfl, ?_⟩⟩
      have hne : w.latest ≠ k := Nat.ne_of_gt hk
      show ((w.pushed ++ [_]).filter _).map _ = _
      rw [linesOf_pushed, (h.single _ _ htask).2, if_neg hne, List.append_nil]
      rfl

/-- **An old instance logs no more** once the next one has been started, whoever holds its
    pipe. -/
theorem linesOf_older {w w' : WriterWorld} {ms : List WriterMove} {k : Nat} (h : Sound w)
    (hrun : Run (WriterStep fromUtf8Lossy) w ms w') (hk : k < w.latest) :
    w'.linesOf k = w.linesOf k := by
  induction hrun with
  | nil _ => rfl
  | cons hst _ ih =>
      rcases step_older h hst with ⟨handle, spawned, rfl, rfl⟩ | ⟨hlatest, hframe⟩
      · rw [ih (sound_start h) (Nat.lt_succ_of_lt hk), start_linesOf]
      · rw [ih (sound_step h hst) (hlatest.symm ▸ hk), (hframe k hk).2]

/-! ## What is pushed -/

/-- The lines that the task alive has, in its hand, in its buffer or in the pipe. -/
def WriterWorld.waiting (w : WriterWorld) : List (List UInt8) :=
  match w.logs.abortHandle.bind w.tasks with
  | none => []
  | some task => task.point.inHand
      ++ segments newline (task.buffer ++ (w.pipes task.incarnation).unread)

/-- **Nothing is lost before the next start.** -/
theorem Sound.segments_eq {w : WriterWorld} (h : Sound w) :
    segments newline (w.pipes w.latest).written = w.linesOf w.latest ++ w.waiting := by
  rw [WriterWorld.waiting]
  cases htask : w.logs.abortHandle.bind w.tasks with
  | none =>
      have hnone : ∀ handle, w.tasks handle = none := by
        intro handle
        cases ht : w.tasks handle with
        | none => rfl
        | some task =>
            rw [(h.single handle task ht).1, Option.bind_some, ht] at htask
            cases htask
      rw [(h.idle hnone).2]
      exact (List.append_nil _).symm
  | some task =>
      obtain ⟨handle, -, ht⟩ := Option.bind_eq_some_iff.mp htask
      show _ = w.linesOf w.latest ++ (task.point.inHand
        ++ segments newline (task.buffer ++ (w.pipes task.incarnation).unread))
      rw [(h.single handle task ht).2, ← List.append_assoc]
      exact (h.progress handle task ht).segments_eq

/-- At a start the old task has no line to push: none in its hand, and no end of a line
    in its buffer and its pipe. -/
def Drained (w : WriterWorld) (m : WriterMove) (_ : WriterWorld) : Prop :=
  ∀ handle spawned, m = .started handle spawned → ∀ old task, w.tasks old = some task →
    task.point.inHand = [] ∧ newline ∉ task.buffer ++ (w.pipes task.incarnation).unread

/-- A drained task has pushed every complete line of its pipe. -/
theorem complete_of_drained {w w' : WriterWorld} {handle : AbortHandle} {spawned : Bool}
    (h : Sound w) (hdrained : Drained w (.started handle spawned) w') :
    complete newline (w.pipes w.latest).written <+: w.linesOf w.latest := by
  by_cases hnone : ∀ handle, w.tasks handle = none
  · rw [← (h.idle hnone).2]
    exact complete_isPrefix_segments _ _
  · obtain ⟨old, hne⟩ := not_forall.mp hnone
    obtain ⟨task, htask⟩ := Option.ne_none_iff_exists'.mp hne
    obtain ⟨hhand, hbuffer⟩ := hdrained handle spawned rfl old task htask
    rw [(h.single old task htask).2] at hbuffer
    cases h.progress old task htask with
    | inside _ hwritten htaken =>
        rw [hhand, List.append_nil] at htaken
        rw [complete, hwritten, split_append (congrArg Prod.snd htaken), htaken,
          split_of_not_mem hbuffer]
        exact (List.append_nil _) ▸ List.prefix_refl _
    | atEnd _ _ _ hsegments =>
        rw [hhand, List.append_nil] at hsegments
        rw [← hsegments]
        exact complete_isPrefix_segments _ _

/-- Every complete line that an older incarnation wrote before its main process exited has
    been pushed. -/
def EarlyPushed (w : WriterWorld) : Prop :=
  ∀ k < w.latest, complete newline (w.pipes k).early <+: w.linesOf k

/-- A step keeps the early lines pushed, if a start finds the old task drained. -/
theorem earlyPushed_step {w w' : WriterWorld} {m : WriterMove} (h : Sound w)
    (hearly : EarlyPushed w) (hst : WriterStep fromUtf8Lossy w m w') (hdrained : Drained w m w') :
    EarlyPushed w' := by
  rcases step_older h hst with ⟨handle, spawned, rfl, rfl⟩ | ⟨hlatest, hframe⟩
  · intro k hk
    change k < w.latest + 1 at hk
    rw [start_linesOf, start_pipes, Function.update_of_ne (Nat.ne_of_lt hk)]
    rcases Nat.lt_or_eq_of_le (Nat.le_of_lt_succ hk) with hlt | heq
    · exact hearly k hlt
    · rw [heq]
      obtain ⟨more, hmore⟩ := h.early w.latest
      refine (complete_isPrefix_append newline _ more).trans ?_
      rw [hmore]
      exact complete_of_drained h hdrained
  · intro k hk
    rw [hlatest] at hk
    rw [(hframe k hk).1, (hframe k hk).2]
    exact hearly k hk

/-- **THE LINES OF THE INCARNATIONS DO NOT MIX**: no line is pushed after one of a later
    incarnation; the lines of each are the first of its pipe, in order and without a gap;
    before the next start every line is pushed or waits with the writer.  So if each start
    finds the old writer without a line to push, all lines that an incarnation wrote before
    its main process exited are pushed. -/
theorem pushed_by_incarnation {capacity : NonZeroUsize} {ms : List WriterMove} {w : WriterWorld}
    (hrun : Run (WriterStep fromUtf8Lossy) (.new capacity) ms w) :
    w.pushed.Pairwise (fun line line' => line.1 ≤ line'.1)
      ∧ (∀ k, w.linesOf k <+: segments newline (w.pipes k).written)
      ∧ segments newline (w.pipes w.latest).written = w.linesOf w.latest ++ w.waiting
      ∧ (Run (Where (WriterStep fromUtf8Lossy) Drained) (.new capacity) ms w →
        ∀ k < w.latest, complete newline (w.pipes k).early <+: w.linesOf k) := by
  have hsound : Sound w := hrun.invariant sound_step (sound_new capacity)
  refine ⟨hsound.ordered, fun k => ?_, hsound.segments_eq, fun hwhere => ?_⟩
  · rcases Nat.lt_trichotomy k w.latest with hlt | heq | hgt
    · exact hsound.older k hlt
    · rw [heq]
      exact hsound.latest_isPrefix
    · rw [hsound.linesOf_later hgt]
      exact List.nil_prefix
  · have hboth : Sound w ∧ EarlyPushed w :=
      hwhere.invariant (I := fun w => Sound w ∧ EarlyPushed w)
        (fun hi hst => ⟨sound_step hi.1 hst.1, earlyPushed_step hi.1 hi.2 hst.1 hst.2⟩)
        ⟨sound_new capacity, fun k hk => absurd hk (Nat.not_lt_zero k)⟩
    exact hboth.2

/-- A decoder for ASCII. -/
def fromAscii (line : List UInt8) : List Char := line.map (fun byte => Char.ofNat byte.toNat)

/-- A line is pushed before the restart. -/
theorem pushed_by_incarnation_restarted :
    ∃ ms w, Run (WriterStep fromAscii) (.new ⟨1, Nat.one_pos⟩) ms w ∧ w.latest = 2
      ∧ complete newline (w.pipes 1).early = [[97]]
      ∧ complete newline (w.pipes 1).early <+: w.linesOf 1 := by
  have hbefore : ∃ w, Run (Where (WriterStep fromAscii) Drained) (.new ⟨1, Nat.one_pos⟩)
      [.started 0 true, .wrote [97, 10], .filled 0 2, .segmented 0 [97], .pushed 0, .exited,
        .reaped] w
      ∧ w.main = .none ∧ w.latest = 1 ∧ (w.pipes 1).unread = []
      ∧ complete newline (w.pipes 1).early = [[97]] ∧ w.tasks 0 = some ⟨1, [], .reading⟩ :=
    ⟨_, .cons ⟨.started rfl rfl, fun _ _ _ _ _ htask => nomatch htask⟩
      (.cons ⟨.wrote rfl, fun _ _ hm => nomatch hm⟩
      (.cons ⟨.filled rfl rfl List.not_mem_nil (by decide) (by decide), fun _ _ hm => nomatch hm⟩
      (.cons ⟨.segmented rfl rfl (by decide) rfl, fun _ _ hm => nomatch hm⟩
      (.cons ⟨.pushed rfl rfl, fun _ _ hm => nomatch hm⟩
      (.cons ⟨.exited rfl, fun _ _ hm => nomatch hm⟩
      (.single ⟨.reaped rfl, fun _ _ hm => nomatch hm⟩)))))), rfl, rfl, rfl, rfl, rfl⟩
  obtain ⟨w, hrun, hmain, hlatest, hunread, hearly, htask⟩ := hbefore
  have hsound : Sound w := hrun.of_where.invariant sound_step (sound_new _)
  have hdrained : Drained w (.started 1 true) (w.start 1 true) := by
    intro _ _ _ old task hold
    by_cases hne : old = 0
    · rw [hne, htask] at hold
      obtain rfl := Option.some.inj hold
      rw [hunread]
      exact ⟨rfl, List.not_mem_nil⟩
    · rw [hsound.other_none htask hne] at hold
      cases hold
  have hall := hrun.snoc ⟨.started hmain (hsound.other_none htask Nat.one_ne_zero), hdrained⟩
  have hpipe : ((w.start 1 true).pipes 1).early = (w.pipes 1).early := by
    rw [start_pipes, hlatest, Function.update_of_ne (by decide)]
  refine ⟨_, w.start 1 true, hall.of_where, congrArg (· + 1) hlatest, hpipe ▸ hearly, ?_⟩
  refine (pushed_by_incarnation hall.of_where).2.2.2 hall 1 ?_
  show 1 < w.latest + 1
  rw [hlatest]
  decide

/-- The lines pushed are those written before an exit, and no others. -/
def OnlyEarly (w : WriterWorld) : Prop :=
  (∀ k < w.latest, w.linesOf k = complete newline (w.pipes k).early)
    ∧ (w.main ≠ .running → w.linesOf w.latest <+: complete newline (w.pipes w.latest).early)

/-- A restart before the task has read its pipe; and a line of a process that outlives the
    main process. -/
theorem unread_lost_late_pushed :
    (∃ ms w, Run (WriterStep fromAscii) (.new ⟨1, Nat.one_pos⟩) ms w ∧ w.latest = 2
        ∧ complete newline (w.pipes 1).early = [[97]] ∧ w.linesOf 1 = [])
      ∧ (∃ ms w, Run (WriterStep fromAscii) (.new ⟨1, Nat.one_pos⟩) ms w ∧ w.main = .exited
        ∧ complete newline (w.pipes 1).early = [] ∧ w.linesOf 1 = [[98]])
      ∧ ¬∀ ms w, Run (WriterStep fromAscii) (.new ⟨1, Nat.one_pos⟩) ms w → OnlyEarly w := by
  have hunread : ∃ w, Run (WriterStep fromAscii) (.new ⟨1, Nat.one_pos⟩)
      [.started 0 true, .wrote [97, 10], .exited, .reaped, .started 1 true] w ∧ w.latest = 2
      ∧ complete newline (w.pipes 1).early = [[97]] ∧ w.linesOf 1 = [] :=
    ⟨_, .cons (.started rfl rfl) (.cons (.wrote rfl) (.cons (.exited rfl) (.cons (.reaped rfl)
      (.single (.started rfl rfl))))), rfl, rfl, rfl⟩
  have hlate : ∃ w, Run (WriterStep fromAscii) (.new ⟨1, Nat.one_pos⟩)
      [.started 0 true, .exited, .wrote [98, 10], .filled 0 2, .segmented 0 [98], .pushed 0] w
      ∧ w.main = .exited ∧ complete newline (w.pipes 1).early = [] ∧ w.linesOf 1 = [[98]] :=
    ⟨_, .cons (.started rfl rfl) (.cons (.exited rfl) (.cons (.wrote rfl)
      (.cons (.filled rfl rfl List.not_mem_nil (by decide) (by decide))
      (.cons (.segmented rfl rfl (by decide) rfl) (.single (.pushed rfl rfl)))))),
      rfl, rfl, rfl⟩
  obtain ⟨w, hrun, hlatest, hearly, hlines⟩ := hunread
  obtain ⟨w', hrun', hmain', hearly', hlines'⟩ := hlate
  refine ⟨⟨_, w, hrun, hlatest, hearly, hlines⟩, ⟨_, w', hrun', hmain', hearly', hlines'⟩, ?_⟩
  intro hall
  have heq := (hall _ w hrun).1 1 (by rw [hlatest]; decide)
  rw [hlines, hearly] at heq
  cases heq

end BeamLogWriters
