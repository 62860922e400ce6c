import BeamInit.Logs
import BeamInit.Runs
import BeamInit.FairMutex

/-! # Log streams — who holds the mutex of a log between polls

    A follow stream reads the ring buffer under its mutex, in the scrutinee of a
    `match`; the guard is a temporary that lives to the end of the match, and the
    stream yields its item inside it.  The runtime has one thread: a task runs
    from the poll that resumes it to its next suspension, and a consumer may take
    several items of its stream in one poll, or stop after any of them. -/

namespace BeamLogStreams

open BeamLogs Runs

/-! ## Streams, pushes and copies -/

/-- Where a follow stream is in its code. -/
inductive Place where
  | created
  /-- At `queue.entries.lock().await`. -/
  | locking
  /-- At a `yield`, with the guard of the match alive. -/
  | yielded
  /-- At `next_entry_notified.await`. -/
  | waiting
deriving DecidableEq

/-- A stream of `Logs::new_reader`. -/
structure FollowStream where
  reader : Nat
  /-- `next_entry_notified` has been notified. -/
  notified : Bool
  place : Place
deriving DecidableEq

/-- What else asks for the mutex. -/
inductive Job where
  | push (line : String)
  | copyLogs
deriving DecidableEq

/-- A task: the consumer of a follow stream, or the caller of a push or a copy. -/
inductive Task where
  | consumer (id : Nat)
  | caller (id : Nat)
deriving DecidableEq

/-- One log, with the futures that use it; `polled` is the task that runs. -/
structure LogWorld where
  queue : RingBuffer
  mutex : FairMutex Task
  streams : Nat → Option FollowStream
  jobs : Nat → Option Job
  polled : Option Task

namespace LogWorld

def new (capacity : NonZeroUsize) : LogWorld :=
  ⟨RingBuffer.new capacity, .free, fun _ => none, fun _ => none, none⟩

def setStream (w : LogWorld) (id : Nat) (stream : Option FollowStream) : LogWorld :=
  { w with streams := fun i => if i = id then stream else w.streams i }

def setJob (w : LogWorld) (id : Nat) (job : Option Job) : LogWorld :=
  { w with jobs := fun i => if i = id then job else w.jobs i }

/-- `notify_waiters`: every `Notified` created so far. -/
def notifyWaiters (w : LogWorld) : LogWorld :=
  { w with streams := fun i => (w.streams i).map (fun stream =>
      if stream.place = .created then stream else { stream with notified := true }) }

end LogWorld

/-! ## Running a task -/

/-- What a future returns, or hands to its consumer. -/
inductive Output where
  | item (line : String)
  | pushed
  | copied (lines : List String)
  | pending
deriving DecidableEq

/-- The body of the stream of `new_reader`, up to its next `await` or `yield`. -/
def advanceStream (w : LogWorld) (id : Nat) (stream : FollowStream) : LogWorld × Option Output :=
  match stream.place with
  | .created =>
      (w.setStream id (some { stream with notified := false, place := .locking }), none)
  | .locking =>
      match w.mutex.poll (.consumer id) with
      | (false, mutex) => ({ w with mutex := mutex, polled := none }, some .pending)
      | (true, mutex) =>
          match w.queue.get stream.reader with
          | (.line line, reader) =>
              ({ w with mutex := mutex }.setStream id
                (some { stream with reader := reader, place := .yielded }), some (.item line))
          | (.lost, reader) =>
              ({ w with mutex := mutex }.setStream id
                (some { stream with reader := reader, place := .yielded }),
                some (.item "[log entries lost]"))
          | (.empty, reader) =>
              ({ w with mutex := mutex.release }.setStream id
                (some { stream with reader := reader, place := .waiting }), none)
  | .yielded =>
      -- `continue` ends the match, and with it the guard.
      ({ w with mutex := w.mutex.release }.setStream id
        (some { stream with place := .locking }), none)
  | .waiting =>
      if stream.notified then
        (w.setStream id (some { stream with notified := false, place := .locking }), none)
      else ({ w with polled := none }, some .pending)

/-- `AsyncRingBuffer::push` and `Logs::copy_logs`. -/
def advanceJob (w : LogWorld) (id : Nat) (job : Job) : LogWorld × Option Output :=
  match w.mutex.poll (.caller id) with
  | (false, mutex) => ({ w with mutex := mutex, polled := none }, some .pending)
  | (true, mutex) =>
      match job with
      | .push line =>
          (({ w with queue := w.queue.push line, mutex := mutex.release,
                      polled := none }.setJob id none).notifyWaiters, some .pushed)
      | .copyLogs =>
          ({ w with mutex := mutex.release, polled := none }.setJob id none,
            some (.copied w.queue.entries))

/-! ## Moves -/

inductive Move where
  /-- `Logs::new_reader`. -/
  | newReader (id : Nat)
  /-- A task comes to a push or a copy. -/
  | call (id : Nat) (job : Job)
  /-- The runtime polls a task. -/
  | resume (task : Task)
  /-- The task that runs goes on to the next await or yield of its future. -/
  | advance
  /-- A task out of its cooperative budget gets `Pending` at an await. -/
  | outOfBudget
  /-- The consumer that runs returns with the item it took, and does not poll its stream again. -/
  | suspend
  /-- The future of a task is dropped. -/
  | drop (task : Task)
deriving DecidableEq

/-- The place of the stream that runs. -/
def LogWorld.running (w : LogWorld) : Option Place :=
  match w.polled with
  | some (.consumer id) => (w.streams id).map (fun stream => stream.place)
  | _ => none

def LogWorld.alive (w : LogWorld) : Task → Bool
  | .consumer id => (w.streams id).isSome
  | .caller id => (w.jobs id).isSome

/-- A future is dropped, by its own task or while no task runs. -/
def LogWorld.remove (w : LogWorld) (task : Task) : LogWorld :=
  match task with
  | .consumer id => { w with mutex := w.mutex.forget task, polled := none }.setStream id none
  | .caller id => { w with mutex := w.mutex.forget task, polled := none }.setJob id none

def step (w : LogWorld) : Move → Option (LogWorld × Option Output)
  | .newReader id =>
      if w.polled = none ∧ w.streams id = none then
        some (w.setStream id (some ⟨0, false, .created⟩), none)
      else none
  | .call id job =>
      if w.polled = none ∧ w.jobs id = none then some (w.setJob id (some job), none) else none
  | .resume task =>
      if w.polled = none ∧ w.alive task = true then some ({ w with polled := some task }, none)
      else none
  | .advance =>
      match w.polled with
      | some (.consumer id) => (w.streams id).map (advanceStream w id)
      | some (.caller id) => (w.jobs id).map (advanceJob w id)
      | none => none
  | .outOfBudget =>
      if w.polled = none ∨ w.running = some .created ∨ w.running = some .yielded then none
      else some ({ w with polled := none }, some .pending)
  | .suspend =>
      if w.running = some .yielded then some ({ w with polled := none }, none) else none
  | .drop task =>
      if (w.polled = none ∨ w.polled = some task) ∧ w.alive task = true then
        some (w.remove task, none)
      else none

/-- A step of the log, with the output it has. -/
def LogStep (w : LogWorld) (label : Move × Option Output) (w' : LogWorld) : Prop :=
  step w label.1 = some (w', label.2)

/-! ## What a step does -/

/-- What one advance of a stream does, by its place. -/
inductive Advanced (w : LogWorld) (id : Nat) (stream : FollowStream) :
    LogWorld × Option Output → Prop where
  | goesOn {stream' : FollowStream} :
      stream.place ≠ .yielded → stream'.place ≠ .yielded →
      Advanced w id stream (w.setStream id (some stream'), none)
  | takes {stream' : FollowStream} {mutex : FairMutex Task} {line : String} :
      stream.place = .locking → w.mutex.poll (.consumer id) = (true, mutex) →
      stream'.place = .yielded →
      Advanced w id stream
        ({ w with mutex := mutex }.setStream id (some stream'), some (.item line))
  | findsNone {stream' : FollowStream} {mutex : FairMutex Task} :
      stream.place = .locking → w.mutex.poll (.consumer id) = (true, mutex) →
      stream'.place ≠ .yielded →
      Advanced w id stream ({ w with mutex := mutex.release }.setStream id (some stream'), none)
  | queues {mutex : FairMutex Task} :
      stream.place = .locking → w.mutex.poll (.consumer id) = (false, mutex) →
      Advanced w id stream ({ w with mutex := mutex, polled := none }, some .pending)
  | continues {stream' : FollowStream} :
      stream.place = .yielded → stream'.place ≠ .yielded →
      Advanced w id stream ({ w with mutex := w.mutex.release }.setStream id (some stream'), none)
  | waits :
      stream.place = .waiting → Advanced w id stream ({ w with polled := none }, some .pending)

/-- What `advanceStream` does is one of the cases. -/
theorem advanceStream_spec (w : LogWorld) (id : Nat) (stream : FollowStream) :
    Advanced w id stream (advanceStream w id stream) := by
  rw [advanceStream]
  cases hplace : stream.place with
  | created => exact .goesOn (by rw [hplace]; exact nofun) nofun
  | locking =>
      rcases hpoll : w.mutex.poll (.consumer id) with ⟨got, mutex⟩
      cases got with
      | false => exact .queues hplace hpoll
      | true =>
          rcases w.queue.get stream.reader with ⟨entry, reader⟩
          cases entry with
          | line line => exact .takes hplace hpoll rfl
          | lost => exact .takes hplace hpoll rfl
          | empty => exact .findsNone hplace hpoll nofun
  | yielded => exact .continues hplace nofun
  | waiting =>
      show Advanced w id stream (if stream.notified = true then _ else _)
      by_cases hnotified : stream.notified = true
      · rw [if_pos hnotified]
        exact .goesOn (by rw [hplace]; exact nofun) nofun
      · rw [if_neg hnotified]
        exact .waits hplace

/-- What one advance of a push or a copy does. -/
inductive Served (w : LogWorld) (id : Nat) : LogWorld × Option Output → Prop where
  | done {w' : LogWorld} {mutex : FairMutex Task} {out : Output} :
      w.mutex.poll (.caller id) = (true, mutex) → out ≠ .pending → w'.mutex = mutex.release →
      w'.polled = none → w'.jobs = (w.setJob id none).jobs →
      (∀ i, (w'.streams i).map (fun stream => stream.place)
        = (w.streams i).map (fun stream => stream.place)) →
      Served w id (w', some out)
  | queues {mutex : FairMutex Task} :
      w.mutex.poll (.caller id) = (false, mutex) →
      Served w id ({ w with mutex := mutex, polled := none }, some .pending)

/-- A notification moves no stream. -/
theorem place_notifyWaiters (w : LogWorld) (i : Nat) :
    (w.notifyWaiters.streams i).map (fun stream => stream.place)
      = (w.streams i).map (fun stream => stream.place) := by
  show ((w.streams i).map _).map _ = _
  cases w.streams i with
  | none => rfl
  | some stream =>
      rw [Option.map_some, Option.map_some, Option.map_some]
      split <;> rfl

/-- What `advanceJob` does is one of the cases. -/
theorem advanceJob_spec (w : LogWorld) (id : Nat) (job : Job) :
    Served w id (advanceJob w id job) := by
  rw [advanceJob]
  rcases hpoll : w.mutex.poll (.caller id) with ⟨got, mutex⟩
  cases got with
  | false => exact .queues hpoll
  | true =>
      cases job with
      | push line =>
          exact .done hpoll nofun rfl rfl rfl (fun i => place_notifyWaiters _ i)
      | copyLogs => exact .done hpoll nofun rfl rfl rfl (fun _ => rfl)

/-! ## A stream at a yield owns the mutex -/

/-- Every stream suspended at a yield holds the guard of its match. -/
def Held (w : LogWorld) : Prop :=
  ∀ id stream, w.streams id = some stream → stream.place = .yielded →
    w.mutex.owner = some (.consumer id)

/-- `Held` only looks at the places. -/
theorem held_iff (w : LogWorld) :
    Held w ↔ ∀ id, (w.streams id).map (fun stream => stream.place) = some .yielded →
      w.mutex.owner = some (.consumer id) := by
  constructor
  · intro h id hplace
    obtain ⟨stream, hstream, hyielded⟩ := Option.map_eq_some_iff.mp hplace
    exact h id stream hstream hyielded
  · intro h id stream hstream hyielded
    exact h id (by rw [hstream, Option.map_some, hyielded])

theorem held_new (capacity : NonZeroUsize) : Held (.new capacity) := nofun

/-- A mutex that changes hands was free, or no other stream owned it. -/
theorem held_setStream {w : LogWorld} {mutex : FairMutex Task} {id : Nat}
    {stream : Option FollowStream} (h : Held w)
    (hother : ∀ i, i ≠ id → w.mutex.owner = some (.consumer i) → mutex.owner = some (.consumer i))
    (hself : ∀ s ∈ stream, s.place = .yielded → mutex.owner = some (.consumer id)) :
    Held ({ w with mutex := mutex }.setStream id stream) := by
  intro i s hs hyielded
  have hs' : (if i = id then stream else w.streams i) = some s := hs
  show mutex.owner = some (.consumer i)
  by_cases hi : i = id
  · rw [if_pos hi] at hs'
    rw [hi]
    exact hself s hs' hyielded
  · rw [if_neg hi] at hs'
    exact hother i hi (h i s hs' hyielded)

/-- A party that may own the mutex is not another stream at a yield. -/
theorem not_other {mutex : FairMutex Task} {task : Task} {i : Nat}
    (h : mutex.owner = none ∨ mutex.owner = some task) (hne : Task.consumer i ≠ task)
    (howner : mutex.owner = some (.consumer i)) : False := by
  rw [howner] at h
  rcases h with h | h
  · exact nomatch h
  · exact hne (Option.some.inj h)

/-- A stream that runs keeps or takes its own guard only. -/
theorem held_advance {w : LogWorld} {id : Nat} {stream : FollowStream}
    {result : LogWorld × Option Output} (h : Held w) (hstream : w.streams id = some stream)
    (hadv : Advanced w id stream result) : Held result.1 := by
  have hne : ∀ {i : Nat}, i ≠ id → Task.consumer i ≠ .consumer id :=
    fun hi heq => hi (Task.consumer.inj heq)
  cases hadv with
  | goesOn _ hplace =>
      exact held_setStream h (fun _ _ howner => howner)
        (fun s hs hyielded => absurd (Option.some.inj hs ▸ hyielded) hplace)
  | takes _ hpoll _ =>
      obtain ⟨hbefore, hafter⟩ := FairMutex.poll_true hpoll
      exact held_setStream h (fun i hi howner => (not_other hbefore (hne hi) howner).elim)
        (fun _ _ _ => hafter)
  | findsNone _ hpoll hplace =>
      obtain ⟨hbefore, -⟩ := FairMutex.poll_true hpoll
      exact held_setStream h (fun i hi howner => (not_other hbefore (hne hi) howner).elim)
        (fun s hs hyielded => absurd (Option.some.inj hs ▸ hyielded) hplace)
  | queues _ hpoll =>
      obtain ⟨q, -, hbefore, hafter⟩ := FairMutex.poll_false hpoll
      intro i s hs hyielded
      show _ = _
      rw [hafter, ← hbefore]
      exact h i s hs hyielded
  | continues hyielded hplace =>
      have howner := h id stream hstream hyielded
      exact held_setStream h
        (fun i hi howner' => (not_other (.inr howner) (hne hi) howner').elim)
        (fun s hs hyielded' => absurd (Option.some.inj hs ▸ hyielded') hplace)
  | waits _ => exact h

/-- A push or a copy takes no guard of a stream. -/
theorem held_served {w : LogWorld} {id : Nat} {result : LogWorld × Option Output} (h : Held w)
    (hserved : Served w id result) : Held result.1 := by
  cases hserved with
  | done hpoll _ hmutex _ _ hplaces =>
      obtain ⟨hbefore, -⟩ := FairMutex.poll_true hpoll
      rw [held_iff] at h ⊢
      intro i hplace
      rw [hplaces] at hplace
      exact (not_other hbefore nofun (h i hplace)).elim
  | queues hpoll =>
      obtain ⟨q, -, hbefore, hafter⟩ := FairMutex.poll_false hpoll
      intro i s hs hyielded
      show _ = _
      rw [hafter, ← hbefore]
      exact h i s hs hyielded

/-- What a step does, one case for each move. -/
inductive Stepped (w : LogWorld) : Move × Option Output → LogWorld → Prop where
  | newReader {id : Nat} : w.polled = none → w.streams id = none →
      Stepped w (.newReader id, none) (w.setStream id (some ⟨0, false, .created⟩))
  | call {id : Nat} {job : Job} : w.polled = none → w.jobs id = none →
      Stepped w (.call id job, none) (w.setJob id (some job))
  | resume {task : Task} : w.polled = none → w.alive task = true →
      Stepped w (.resume task, none) { w with polled := some task }
  | stream {id : Nat} {stream : FollowStream} {w' : LogWorld} {out : Option Output} :
      w.polled = some (.consumer id) → w.streams id = some stream →
      advanceStream w id stream = (w', out) → Stepped w (.advance, out) w'
  | job {id : Nat} {job : Job} {w' : LogWorld} {out : Option Output} :
      w.polled = some (.caller id) → w.jobs id = some job →
      advanceJob w id job = (w', out) → Stepped w (.advance, out) w'
  | outOfBudget : w.polled ≠ none → w.running ≠ some .created → w.running ≠ some .yielded →
      Stepped w (.outOfBudget, some .pending) { w with polled := none }
  | suspend : w.running = some .yielded →
      Stepped w (.suspend, none) { w with polled := none }
  | drop {task : Task} : w.polled = none ∨ w.polled = some task → w.alive task = true →
      Stepped w (.drop task, none) (w.remove task)

/-- Every step is one of the cases. -/
theorem stepped_of_step {w w' : LogWorld} {label : Move × Option Output}
    (h : LogStep w label w') : Stepped w label w' := by
  obtain ⟨move, out⟩ := label
  have h' : step w move = some (w', out) := h
  cases move with
  | newReader id =>
      rw [step] at h'
      split at h'
      · next hguard => cases h'; exact .newReader hguard.1 hguard.2
      · cases h'
  | call id job =>
      rw [step] at h'
      split at h'
      · next hguard => cases h'; exact .call hguard.1 hguard.2
      · cases h'
  | resume task =>
      rw [step] at h'
      split at h'
      · next hguard => cases h'; exact .resume hguard.1 hguard.2
      · cases h'
  | advance =>
      rw [step] at h'
      split at h'
      · next id hpolled =>
          obtain ⟨stream, hstream, hadv⟩ := Option.map_eq_some_iff.mp h'
          exact .stream hpolled hstream hadv
      · next id hpolled =>
          obtain ⟨job, hjob, hadv⟩ := Option.map_eq_some_iff.mp h'
          exact .job hpolled hjob hadv
      · cases h'
  | outOfBudget =>
      rw [step] at h'
      split at h'
      · cases h'
      · next hguard =>
          cases h'
          rw [not_or, not_or] at hguard
          exact .outOfBudget hguard.1 hguard.2.1 hguard.2.2
  | suspend =>
      rw [step] at h'
      split at h'
      · next hyielded => cases h'; exact .suspend hyielded
      · cases h'
  | drop task =>
      rw [step] at h'
      split at h'
      · next hguard => cases h'; exact .drop hguard.1 hguard.2
      · cases h'

/-- The step lemma for `Held`. -/
theorem held_step {w w' : LogWorld} {label : Move × Option Output} (h : Held w)
    (hstep : LogStep w label w') : Held w' := by
  cases stepped_of_step hstep with
  | newReader _ _ =>
      exact held_setStream h (fun _ _ howner => howner)
        (fun s hs hyielded => absurd hyielded (by rw [← Option.some.inj hs]; exact nofun))
  | call | resume | outOfBudget | suspend => exact h
  | @stream id stream _ _ _ hstream hadv =>
      exact held_advance h hstream (hadv ▸ advanceStream_spec w id stream)
  | @job id job _ _ _ _ hadv => exact held_served h (hadv ▸ advanceJob_spec w id job)
  | @drop task _ _ =>
      cases task with
      | consumer id =>
          refine held_setStream (w := { w with polled := none }) h (fun i hi howner => ?_)
            (fun s hs => nomatch hs)
          rw [FairMutex.forget_owner]
          · exact howner
          · intro hself
            exact hi (Task.consumer.inj (Option.some.inj (howner.symm.trans hself)))
      | caller id =>
          intro i s hs hyielded
          have howner := h i s hs hyielded
          show (w.mutex.forget (.caller id)).owner = _
          rw [FairMutex.forget_owner]
          · exact howner
          · rw [howner]
            exact nofun

/-! ## The mutex is free between polls -/

/-- Nobody waits for the mutex, and it is free unless the stream that runs is at a yield. -/
def Settled (w : LogWorld) : Prop :=
  w.mutex.waiting = [] ∧ (w.mutex.owner = none ∨ w.running = some .yielded)

theorem settled_new (capacity : NonZeroUsize) : Settled (.new capacity) := ⟨rfl, .inl rfl⟩

/-- Unless the stream that runs is at a yield, the mutex is free. -/
theorem Settled.free_of {w : LogWorld} (h : Settled w) (hplace : w.running ≠ some .yielded) :
    w.mutex.owner = none := by
  rcases h.2 with hfree | hyielded
  · exact hfree
  · exact absurd hyielded hplace

theorem running_eq {w : LogWorld} {id : Nat} {stream : FollowStream}
    (hpolled : w.polled = some (.consumer id)) (hstream : w.streams id = some stream) :
    w.running = some stream.place := by
  rw [LogWorld.running, hpolled]
  show (w.streams id).map _ = _
  rw [hstream]
  rfl

theorem running_none {w : LogWorld} (h : w.polled = none) : w.running = none := by
  rw [LogWorld.running, h]

/-- A stream that runs at a yield owns the mutex. -/
theorem owner_of_running {w : LogWorld} (h : Held w) (hrunning : w.running = some .yielded) :
    ∃ id, w.polled = some (.consumer id) ∧ w.mutex.owner = some (.consumer id) := by
  rw [LogWorld.running] at hrunning
  split at hrunning
  · next id hpolled =>
      obtain ⟨stream, hstream, hyielded⟩ := Option.map_eq_some_iff.mp hrunning
      exact ⟨id, hpolled, h id stream hstream hyielded⟩
  · exact nomatch hrunning

/-- A poll of a free mutex nobody waits for leaves it free once it is released. -/
theorem free_of_release {mutex mutex' : FairMutex Task} {task : Task} {got : Bool}
    (hfree : mutex.owner = none) (hpoll : mutex.poll task = (got, mutex')) :
    got = true ∧ mutex'.waiting = [] := by
  obtain ⟨hgot, -, hwaiting⟩ := FairMutex.poll_free hfree task
  rw [hpoll] at hgot hwaiting
  exact ⟨hgot, hwaiting⟩

/-- An advance of the stream that runs keeps this. -/
theorem settled_advance {w : LogWorld} {id : Nat} {stream : FollowStream}
    {result : LogWorld × Option Output} (h : Settled w) (hpolled : w.polled = some (.consumer id))
    (hstream : w.streams id = some stream) (hadv : Advanced w id stream result) :
    Settled result.1 := by
  have hrunning := running_eq hpolled hstream
  have hfree : stream.place ≠ .yielded → w.mutex.owner = none := by
    intro hplace
    refine h.free_of (fun heq => hplace ?_)
    exact Option.some.inj (hrunning.symm.trans heq)
  cases hadv with
  | goesOn hplace _ => exact ⟨h.1, .inl (hfree hplace)⟩
  | @takes stream' mutex line hplace hpoll hyielded =>
      obtain ⟨-, hwaiting⟩ := free_of_release (hfree (by rw [hplace]; exact nofun)) hpoll
      have hplace' := running_eq (w := { w with mutex := mutex }.setStream id (some stream'))
        hpolled (if_pos rfl)
      exact ⟨hwaiting, .inr (hplace'.trans (congrArg some hyielded))⟩
  | findsNone hplace hpoll _ =>
      obtain ⟨-, hwaiting⟩ := free_of_release (hfree (by rw [hplace]; exact nofun)) hpoll
      show Settled (LogWorld.setStream { w with mutex := _ } id _)
      rw [FairMutex.release_of_waiting hwaiting]
      exact ⟨rfl, .inl rfl⟩
  | queues hplace hpoll =>
      exact nomatch (free_of_release (hfree (by rw [hplace]; exact nofun)) hpoll).1
  | continues _ _ =>
      show Settled (LogWorld.setStream { w with mutex := _ } id _)
      rw [FairMutex.release_of_waiting h.1]
      exact ⟨rfl, .inl rfl⟩
  | waits hplace => exact ⟨h.1, .inl (hfree (by rw [hplace]; exact nofun))⟩

/-- So does one of a push or a copy, which never has to wait. -/
theorem settled_served {w : LogWorld} {id : Nat} {result : LogWorld × Option Output}
    (h : Settled w) (hpolled : w.polled = some (.caller id)) (hserved : Served w id result) :
    Settled result.1 ∧ result.2 ≠ some .pending := by
  have hfree : w.mutex.owner = none := by
    refine h.free_of ?_
    rw [LogWorld.running, hpolled]
    exact nofun
  cases hserved with
  | done hpoll hout hmutex _ _ _ =>
      obtain ⟨-, hwaiting⟩ := free_of_release hfree hpoll
      rw [FairMutex.release_of_waiting hwaiting] at hmutex
      refine ⟨⟨?_, .inl ?_⟩, fun heq => hout (Option.some.inj heq)⟩
      · rw [hmutex]; rfl
      · rw [hmutex]; rfl
  | queues hpoll => exact nomatch (free_of_release hfree hpoll).1

/-- The step lemma for `Settled`. -/
theorem settled_step {w w' : LogWorld} {label : Move × Option Output} (hheld : Held w)
    (h : Settled w) (hmove : label.1 ≠ .suspend) (hstep : LogStep w label w') : Settled w' := by
  have hidle : w.polled = none → w.mutex.owner = none := by
    intro hpolled
    refine h.free_of ?_
    rw [running_none hpolled]
    exact nofun
  cases stepped_of_step hstep with
  | newReader hpolled _ | call hpolled _ | resume hpolled _ => exact ⟨h.1, .inl (hidle hpolled)⟩
  | @stream id stream _ _ hpolled hstream hadv =>
      have hsettled := settled_advance h hpolled hstream (advanceStream_spec w id stream)
      rwa [hadv] at hsettled
  | @job id job _ _ hpolled _ hadv =>
      have hsettled := (settled_served h hpolled (advanceJob_spec w id job)).1
      rwa [hadv] at hsettled
  | outOfBudget _ _ hyielded => exact ⟨h.1, .inl (h.free_of hyielded)⟩
  | suspend => exact absurd rfl hmove
  | @drop task hpolled _ =>
      have howner : w.mutex.owner = none ∨ w.mutex.owner = some task := by
        rcases h.2 with hfree | hyielded
        · exact .inl hfree
        · obtain ⟨id, hrunning, howner⟩ := owner_of_running hheld hyielded
          rcases hpolled with hnone | htask
          · exact nomatch hnone.symm.trans hrunning
          · rw [howner, Option.some.inj (htask.symm.trans hrunning)]
            exact .inr rfl
      have hmutex : (w.remove task).mutex = .free := by
        rw [← FairMutex.forget_free h.1 howner]
        cases task <;> rfl
      rw [Settled, hmutex]
      exact ⟨rfl, .inl rfl⟩

/-! ## The whole run -/

/-- The same for a run. -/
theorem held_run {w w' : LogWorld} {labels : List (Move × Option Output)} (h : Held w)
    (hrun : Run LogStep w labels w') : Held w' :=
  hrun.invariant (I := Held) held_step h

/-- The run lemma: `Settled` is kept while no consumer suspends with an item. -/
theorem settled_run {w w' : LogWorld} {labels : List (Move × Option Output)} (hheld : Held w)
    (h : Settled w) (hrun : Run LogStep w labels w') (hmoves : ∀ l ∈ labels, l.1 ≠ .suspend) :
    Settled w' :=
  (hrun.invariant_of (I := fun w => Held w ∧ Settled w) (Q := fun l => l.1 ≠ .suspend)
    (fun hmove hi hstep => ⟨held_step hi.1 hstep, settled_step hi.1 hi.2 hmove hstep⟩)
    hmoves ⟨hheld, h⟩).2

/-- A consumer that suspends with an item leaves the mutex taken. -/
theorem suspend_holds {w w' : LogWorld} {out : Option Output} (h : Held w)
    (hstep : LogStep w (.suspend, out) w') : w'.polled = none ∧ w'.mutex.owner ≠ none := by
  cases stepped_of_step hstep with
  | suspend hyielded =>
      obtain ⟨id, -, howner⟩ := owner_of_running h hyielded
      refine ⟨rfl, ?_⟩
      show w.mutex.owner ≠ none
      rw [howner]
      exact nofun

/-- **THE MUTEX OF A LOG IS FREE BETWEEN POLLS** in a run exactly when no consumer
    ends a poll with an item in its hands. -/
theorem mutex_free_between_polls {capacity : NonZeroUsize} {w : LogWorld}
    {labels : List (Move × Option Output)} (hrun : Run LogStep (.new capacity) labels w) :
    (∀ before after w₁, labels = before ++ after → Run LogStep (.new capacity) before w₁ →
        Run LogStep w₁ after w → w₁.polled = none → w₁.mutex.owner = none)
      ↔ ∀ l ∈ labels, l.1 ≠ .suspend := by
  constructor
  · rintro hfree ⟨move, out⟩ hmem rfl
    obtain ⟨before, after, w₁, w₂, hlabels, hbefore, hstep, hafter⟩ := hrun.step_of_mem hmem
    obtain ⟨hpolled, howner⟩ := suspend_holds (held_run (held_new capacity) hbefore) hstep
    refine howner (hfree (before ++ [(.suspend, out)]) after w₂ ?_ (hbefore.snoc hstep) hafter hpolled)
    rw [hlabels, List.append_assoc, List.singleton_append]
  · intro hmoves before after w₁ hlabels hbefore _ hpolled
    have hsettled := settled_run (held_new capacity) (settled_new capacity) hbefore
      (fun l hl => hmoves l (by rw [hlabels]; exact List.mem_append_left _ hl))
    refine hsettled.free_of ?_
    rw [running_none hpolled]
    exact nofun

/-- A consumer that reads its stream to the end in one poll. -/
theorem mutex_free_between_polls_drained :
    ∃ w, Run LogStep (.new ⟨1, Nat.one_pos⟩)
        [(.newReader 0, none), (.call 0 (.push "up"), none), (.resume (.caller 0), none),
          (.advance, some .pushed), (.resume (.consumer 0), none), (.advance, none),
          (.advance, some (.item "up")), (.advance, none), (.advance, none),
          (.advance, some .pending)] w
      ∧ w.mutex.owner = none := by
  have hrun : ∃ w, Run LogStep (.new ⟨1, Nat.one_pos⟩)
        [(.newReader 0, none), (.call 0 (.push "up"), none), (.resume (.caller 0), none),
          (.advance, some .pushed), (.resume (.consumer 0), none), (.advance, none),
          (.advance, some (.item "up")), (.advance, none), (.advance, none),
          (.advance, some .pending)] w ∧ w.polled = none :=
    ⟨_, .cons rfl (.cons rfl (.cons rfl (.cons rfl (.cons rfl (.cons rfl (.cons rfl (.cons rfl
      (.cons rfl (.cons rfl (.nil _)))))))))), rfl⟩
  obtain ⟨w, hrun, hpolled⟩ := hrun
  exact ⟨w, hrun, (mutex_free_between_polls hrun).mpr (by decide) _ [] w
    (List.append_nil _).symm hrun (.nil w) hpolled⟩

/-! ## What a stalled consumer blocks -/

/-- The consumer owns the mutex and does not run. -/
structure Stalled (id : Nat) (w : LogWorld) : Prop where
  held : Held w
  owner : w.mutex.owner = some (.consumer id)
  suspended : w.polled ≠ some (.consumer id)

/-- The consumer is not polled again, and its stream not dropped. -/
def Absent (id : Nat) (label : Move × Option Output) : Prop :=
  label.1 ≠ .resume (.consumer id) ∧ label.1 ≠ .drop (.consumer id)

/-- Nothing is pushed to or copied from the log. -/
def Blocked (label : Move × Option Output) : Prop :=
  label.2 ≠ some .pushed ∧ ∀ lines, label.2 ≠ some (.copied lines)

/-- No other task gets the mutex of a stalled consumer. -/
theorem not_stalled {w : LogWorld} {id : Nat} {task : Task} {mutex : FairMutex Task}
    (h : Stalled id w) (htask : task ≠ .consumer id) (hpoll : w.mutex.poll task = (true, mutex)) :
    False :=
  not_other (FairMutex.poll_true hpoll).1 (Ne.symm htask) h.owner

/-- A task that queues behind a stalled consumer leaves it the owner. -/
theorem queued_owner {w : LogWorld} {id : Nat} {task : Task} {mutex : FairMutex Task}
    (h : Stalled id w) (hpoll : w.mutex.poll task = (false, mutex)) :
    mutex.owner = some (.consumer id) := by
  obtain ⟨q, -, hbefore, hafter⟩ := FairMutex.poll_false hpoll
  rw [hafter, ← hbefore, h.owner]

/-- The step lemma: whatever else runs, the consumer keeps the mutex. -/
theorem stalled_step {w w' : LogWorld} {id : Nat} {label : Move × Option Output}
    (h : Stalled id w) (hlabel : Absent id label) (hstep : LogStep w label w') :
    Stalled id w' ∧ Blocked label := by
  have hheld := held_step h.held hstep
  have hnone : ∀ move, Blocked (move, none) := fun _ => ⟨nofun, fun _ => nofun⟩
  have hpending : ∀ move, Blocked (move, some .pending) := fun _ => ⟨nofun, fun _ => nofun⟩
  cases stepped_of_step hstep with
  | newReader | call => exact ⟨⟨hheld, h.owner, h.suspended⟩, hnone _⟩
  | resume =>
      refine ⟨⟨hheld, h.owner, fun heq => hlabel.1 ?_⟩, hnone _⟩
      rw [Option.some.inj heq]
  | @stream i stream _ _ hpolled hstream hadv =>
      have hne : Task.consumer i ≠ .consumer id :=
        fun heq => h.suspended (hpolled.trans (congrArg some heq))
      have hspec := advanceStream_spec w i stream
      rw [hadv] at hspec
      cases hspec with
      | goesOn _ _ => exact ⟨⟨hheld, h.owner, h.suspended⟩, hnone _⟩
      | takes _ hpoll _ => exact (not_stalled h hne hpoll).elim
      | findsNone _ hpoll _ => exact (not_stalled h hne hpoll).elim
      | queues _ hpoll => exact ⟨⟨hheld, queued_owner h hpoll, nofun⟩, hpending _⟩
      | continues hyielded _ =>
          have howner := h.held i stream hstream hyielded
          exact absurd (Option.some.inj (howner.symm.trans h.owner)) hne
      | waits _ => exact ⟨⟨hheld, h.owner, nofun⟩, hpending _⟩
  | @job i job _ _ _ _ hadv =>
      have hne : Task.caller i ≠ .consumer id := nofun
      have hspec := advanceJob_spec w i job
      rw [hadv] at hspec
      cases hspec with
      | done hpoll _ _ _ _ _ => exact (not_stalled h hne hpoll).elim
      | queues hpoll => exact ⟨⟨hheld, queued_owner h hpoll, nofun⟩, hpending _⟩
  | outOfBudget => exact ⟨⟨hheld, h.owner, nofun⟩, hpending _⟩
  | suspend => exact ⟨⟨hheld, h.owner, nofun⟩, hnone _⟩
  | @drop task _ _ =>
      have howner : (w.mutex.forget task).owner = some (.consumer id) := by
        rw [FairMutex.forget_owner]
        · exact h.owner
        · rw [h.owner]
          exact fun heq => hlabel.2 (congrArg Move.drop (Option.some.inj heq).symm)
      have hpolled : (w.remove task).polled = none := by cases task <;> rfl
      have hmutex : (w.remove task).mutex = w.mutex.forget task := by cases task <;> rfl
      refine ⟨⟨hheld, ?_, ?_⟩, hnone _⟩
      · rw [hmutex]; exact howner
      · rw [hpolled]; exact nofun

/-- **A STALLED CONSUMER BLOCKS THE LOG**: until it runs again or its stream is
    dropped, nothing is pushed or copied. -/
theorem stalled_run {w w' : LogWorld} {id : Nat} {labels : List (Move × Option Output)}
    (h : Stalled id w) (hrun : Run LogStep w labels w') (habsent : ∀ l ∈ labels, Absent id l) :
    Stalled id w' ∧ ∀ l ∈ labels, Blocked l := by
  induction hrun with
  | nil w => exact ⟨h, fun _ hl => nomatch hl⟩
  | @cons w w₁ w' l rest hstep _ ih =>
      obtain ⟨h₁, hblocked⟩ := stalled_step h (habsent l List.mem_cons_self) hstep
      obtain ⟨h', hrest⟩ := ih h₁ (fun l hl => habsent l (List.mem_cons_of_mem _ hl))
      refine ⟨h', fun l' hl => ?_⟩
      rcases List.mem_cons.mp hl with rfl | hl
      · exact hblocked
      · exact hrest l' hl

/-- A consumer that takes one item and stops keeps the mutex, and the next push waits. -/
theorem stalled_consumer_keeps_mutex :
    ∃ w w', Run LogStep (.new ⟨1, Nat.one_pos⟩)
        [(.newReader 0, none), (.call 0 (.push "up"), none), (.resume (.caller 0), none),
          (.advance, some .pushed), (.resume (.consumer 0), none), (.advance, none),
          (.advance, some (.item "up")), (.suspend, none)] w
      ∧ w.polled = none ∧ w.mutex.owner = some (.consumer 0)
      ∧ Run LogStep w [(.call 1 (.push "failed"), none), (.resume (.caller 1), none),
          (.advance, some .pending)] w' :=
  ⟨_, _, .cons rfl (.cons rfl (.cons rfl (.cons rfl (.cons rfl (.cons rfl (.cons rfl (.cons rfl
    (.nil _)))))))), rfl, rfl, .cons rfl (.cons rfl (.cons rfl (.nil _)))⟩

end BeamLogStreams
