import BeamInit.LogStreams

/-! # Log wake-ups — no follow stream sleeps beside a line

    A push stores its line under the mutex and notifies once it has released it; a
    follow stream creates its `Notified` before it looks, and waits for it when it
    found nothing.  Here each of these is a step of its own, and the steps of any
    number of pushes and streams are interleaved as threads would be. -/

namespace BeamLogWakeups

open BeamLogs BeamLogStreams Runs

/-! ## Pushes and streams, step by step -/

/-- Where a follow stream is in its code. -/
inductive Point where
  /-- Before the first `notified()`. -/
  | created
  /-- At `queue.entries.lock().await`. -/
  | locking
  /-- With the guard, before `get`. -/
  | looking
  /-- At a `yield`, with the guard. -/
  | yielded
  /-- `get` found nothing; the guard is still alive. -/
  | leaving
  /-- At `next_entry_notified.await`. -/
  | waiting
  /-- `next_entry_notified` has completed; it is to be created again. -/
  | woken
deriving DecidableEq

def Point.hasGuard : Point → Bool
  | .looking | .yielded | .leaving => true
  | .created | .locking | .waiting | .woken => false

/-- The stream can be dropped: it is suspended, or was never polled. -/
def Point.suspended : Point → Bool
  | .created | .locking | .yielded | .waiting => true
  | .looking | .leaving | .woken => false

structure Follower where
  reader : Nat
  /-- `notify_waiters` was called after `next_entry_notified` was created. -/
  notified : Bool
  point : Point
deriving DecidableEq

/-- Where a call of `AsyncRingBuffer::push` is. -/
inductive PushPoint where
  /-- At `self.entries.lock().await`. -/
  | locking (line : String)
  /-- With the guard, before `push`. -/
  | storing (line : String)
  /-- Before `notify_waiters`. -/
  | stored
deriving DecidableEq

/-- An `AsyncRingBuffer` with the pushes and the streams that use it. -/
structure Shared where
  queue : RingBuffer
  /-- Who has the guard of the mutex. -/
  guard : Option Task
  followers : Nat → Option Follower
  pushes : Nat → Option PushPoint

namespace Shared

def new (capacity : NonZeroUsize) : Shared :=
  ⟨RingBuffer.new capacity, none, fun _ => none, fun _ => none⟩

def setFollower (w : Shared) (id : Nat) (follower : Option Follower) : Shared :=
  { w with followers := Function.update w.followers id follower }

def setPush (w : Shared) (id : Nat) (push : Option PushPoint) : Shared :=
  { w with pushes := Function.update w.pushes id push }

/-- `notify_waiters`: every `Notified` created so far. -/
def notifyWaiters (w : Shared) : Shared :=
  { w with followers := fun i => (w.followers i).map (fun follower =>
      if follower.point = .created then follower else { follower with notified := true }) }

/-- The guard of a task that is gone is released. -/
def release (w : Shared) (task : Task) : Shared :=
  { w with guard := if w.guard = some task then none else w.guard }

end Shared

inductive WakeMove where
  /-- `Logs::new_reader`. -/
  | newReader (id : Nat)
  /-- `next_entry_notified` is created, or created again. -/
  | creates (id : Nat)
  | locks (task : Task)
  | yields (id : Nat)
  | findsNone (id : Nat)
  | leaves (id : Nat)
  | continues (id : Nat)
  | wakes (id : Nat)
  | calls (id : Nat) (line : String)
  | stores (id : Nat)
  | notifies (id : Nat)
  | drops (task : Task)
deriving DecidableEq

/-- One step of one stream or one push. -/
inductive WakeStep : Shared → WakeMove → Shared → Prop where
  | newReader {w : Shared} {id : Nat} : w.followers id = none →
      WakeStep w (.newReader id) (w.setFollower id (some ⟨0, false, .created⟩))
  | creates {w : Shared} {id : Nat} {follower : Follower} :
      w.followers id = some follower → follower.point = .created ∨ follower.point = .woken →
      WakeStep w (.creates id)
        (w.setFollower id (some { follower with notified := false, point := .locking }))
  | readerLocks {w : Shared} {id : Nat} {follower : Follower} :
      w.followers id = some follower → follower.point = .locking → w.guard = none →
      WakeStep w (.locks (.consumer id)) ({ w with guard := some (.consumer id) }.setFollower id
        (some { follower with point := .looking }))
  | yields {w : Shared} {id : Nat} {follower : Follower} {entry : RingBufferEntry} {reader : Nat} :
      w.followers id = some follower → follower.point = .looking →
      w.queue.get follower.reader = (entry, reader) → entry ≠ .empty →
      WakeStep w (.yields id)
        (w.setFollower id (some { follower with reader := reader, point := .yielded }))
  | findsNone {w : Shared} {id : Nat} {follower : Follower} {reader : Nat} :
      w.followers id = some follower → follower.point = .looking →
      w.queue.get follower.reader = (.empty, reader) →
      WakeStep w (.findsNone id)
        (w.setFollower id (some { follower with reader := reader, point := .leaving }))
  | leaves {w : Shared} {id : Nat} {follower : Follower} :
      w.followers id = some follower → follower.point = .leaving →
      WakeStep w (.leaves id) ({ w with guard := none }.setFollower id
        (some { follower with point := .waiting }))
  | continues {w : Shared} {id : Nat} {follower : Follower} :
      w.followers id = some follower → follower.point = .yielded →
      WakeStep w (.continues id) ({ w with guard := none }.setFollower id
        (some { follower with point := .locking }))
  | wakes {w : Shared} {id : Nat} {follower : Follower} :
      w.followers id = some follower → follower.point = .waiting → follower.notified = true →
      WakeStep w (.wakes id) (w.setFollower id (some { follower with point := .woken }))
  | calls {w : Shared} {id : Nat} {line : String} : w.pushes id = none →
      WakeStep w (.calls id line) (w.setPush id (some (.locking line)))
  | pushLocks {w : Shared} {id : Nat} {line : String} :
      w.pushes id = some (.locking line) → w.guard = none →
      WakeStep w (.locks (.caller id)) ({ w with guard := some (.caller id) }.setPush id
        (some (.storing line)))
  | stores {w : Shared} {id : Nat} {line : String} : w.pushes id = some (.storing line) →
      WakeStep w (.stores id) ({ w with queue := w.queue.push line, guard := none }.setPush id
        (some .stored))
  | notifies {w : Shared} {id : Nat} : w.pushes id = some .stored →
      WakeStep w (.notifies id) (w.setPush id none).notifyWaiters
  | readerDrops {w : Shared} {id : Nat} {follower : Follower} :
      w.followers id = some follower → follower.point.suspended = true →
      WakeStep w (.drops (.consumer id)) ((w.release (.consumer id)).setFollower id none)
  | pushDrops {w : Shared} {id : Nat} {line : String} : w.pushes id = some (.locking line) →
      WakeStep w (.drops (.caller id)) (w.setPush id none)

/-! ## What holds of a stream -/

/-- A push has stored its line and not notified yet. -/
def Shared.Coming (w : Shared) : Prop := ∃ push, w.pushes push = some .stored

/-- A stream beside the guard, the end of the buffer and the notifications that are to
    come. -/
structure Sound (guard : Option Task) (next : Nat) (coming : Prop) (id : Nat)
    (follower : Follower) : Prop where
  guarded : follower.point.hasGuard = true → guard = some (.consumer id)
  behind : follower.reader ≤ next
  atEnd : follower.point = .leaving → follower.reader = next
  awake : follower.point = .waiting → follower.reader = next ∨ follower.notified = true ∨ coming

structure Consistent (w : Shared) : Prop where
  followers : ∀ id follower, w.followers id = some follower →
    Sound w.guard w.queue.nextIdx w.Coming id follower
  storing : ∀ id line, w.pushes id = some (.storing line) → w.guard = some (.caller id)

theorem consistent_new (capacity : NonZeroUsize) : Consistent (.new capacity) where
  followers _ _ h := nomatch h
  storing _ _ h := nomatch h

/-- Without the guard it does not matter to a stream who has it. -/
theorem Sound.of_no_guard {guard : Option Task} {next : Nat} {coming : Prop} {id : Nat}
    {follower : Follower} (h : Sound guard next coming id follower)
    (hno : guard ≠ some (.consumer id)) (guard' : Option Task) :
    Sound guard' next coming id follower where
  guarded hhas := absurd (h.guarded hhas) hno
  behind := h.behind
  atEnd := h.atEnd
  awake := h.awake

/-- A stream takes the guard when it is free, keeps it, or gives up its own. -/
theorem consistent_setFollower {w : Shared} {id : Nat} {guard : Option Task}
    {follower : Option Follower} (h : Consistent w)
    (hguard : guard = w.guard ∨ w.guard = none ∨ w.guard = some (.consumer id))
    (hself : ∀ f ∈ follower, Sound guard w.queue.nextIdx w.Coming id f) :
    Consistent ({ w with guard := guard }.setFollower id follower) := by
  constructor
  · intro i f hf
    change Function.update w.followers id follower i = some f at hf
    show Sound guard w.queue.nextIdx w.Coming i f
    by_cases hi : i = id
    · rw [hi, Function.update_self] at hf
      rw [hi]
      exact hself f hf
    · rw [Function.update_of_ne hi] at hf
      have hsound := h.followers i f hf
      rcases hguard with hguard | hguard | hguard
      · rw [hguard]
        exact hsound
      · exact hsound.of_no_guard (by rw [hguard]; exact nofun) guard
      · refine hsound.of_no_guard (fun heq => ?_) guard
        rw [hguard] at heq
        exact hi (Task.consumer.inj (Option.some.inj heq)).symm
  · intro i line hpush
    show guard = _
    have howner := h.storing i line hpush
    rcases hguard with hguard | hguard | hguard
    · exact hguard.trans howner
    · rw [hguard] at howner
      cases howner
    · rw [hguard] at howner
      cases howner

/-- What a stream relies on may only grow. -/
theorem Sound.mono {guard : Option Task} {next : Nat} {coming coming' : Prop} {id : Nat}
    {follower : Follower} (h : Sound guard next coming id follower) (hcoming : coming → coming') :
    Sound guard next coming' id follower :=
  { h with awake := fun hwaiting => (h.awake hwaiting).imp_right (Or.imp_right hcoming) }

/-- A push that does not notify leaves the streams as they are. -/
theorem consistent_setPush {w : Shared} {id : Nat} {guard : Option Task}
    {push : Option PushPoint} (h : Consistent w) (hguard : guard = w.guard ∨ w.guard = none)
    (hbefore : w.pushes id ≠ some .stored)
    (hself : ∀ line, push = some (.storing line) → guard = some (.caller id)) :
    Consistent ({ w with guard := guard }.setPush id push) := by
  constructor
  · intro i f hf
    have hsound : Sound guard w.queue.nextIdx w.Coming i f := by
      rcases hguard with hguard | hguard
      · rw [hguard]
        exact h.followers i f hf
      · exact (h.followers i f hf).of_no_guard (by rw [hguard]; exact nofun) guard
    refine hsound.mono fun hcoming => ?_
    obtain ⟨p, hp⟩ := hcoming
    have hne : p ≠ id := fun heq => hbefore (heq ▸ hp)
    exact ⟨p, (Function.update_of_ne hne _ _).trans hp⟩
  · intro i line hpush
    change Function.update w.pushes id push i = _ at hpush
    show guard = _
    by_cases hi : i = id
    · rw [hi, Function.update_self] at hpush
      rw [hi]
      exact hself line hpush
    · rw [Function.update_of_ne hi] at hpush
      have howner := h.storing i line hpush
      rcases hguard with hguard | hguard
      · exact hguard.trans howner
      · rw [hguard] at howner
        cases howner

/-- A line is stored while no stream has the guard, and its notification is to come. -/
theorem consistent_stores {w : Shared} {id : Nat} {line : String} (h : Consistent w)
    (hpush : w.pushes id = some (.storing line)) :
    Consistent ({ w with queue := w.queue.push line, guard := none }.setPush id
      (some .stored)) := by
  have howner := h.storing id line hpush
  constructor
  · intro i f hf
    have hsound := h.followers i f hf
    have hno : f.point.hasGuard ≠ true := by
      intro hhas
      have heq := (hsound.guarded hhas).symm.trans howner
      cases heq
    refine ⟨fun hhas => absurd hhas hno, Nat.le_succ_of_le hsound.behind, fun hleaving => ?_,
      fun _ => .inr (.inr ⟨id, Function.update_self ..⟩)⟩
    rw [hleaving] at hno
    exact absurd rfl hno
  · intro i line' hpush'
    change Function.update w.pushes id _ i = _ at hpush'
    by_cases hi : i = id
    · rw [hi, Function.update_self] at hpush'
      cases hpush'
    · -- Only one push has the guard.
      rw [Function.update_of_ne hi] at hpush'
      have heq := (h.storing i line' hpush').symm.trans howner
      exact absurd (Task.caller.inj (Option.some.inj heq)) hi

theorem consistent_notifies {w : Shared} {id : Nat} (h : Consistent w) :
    Consistent (w.setPush id none).notifyWaiters := by
  constructor
  · intro i f hf
    change (w.followers i).map _ = some f at hf
    obtain ⟨f₀, hf₀, hf⟩ := Option.map_eq_some_iff.mp hf
    have hsound := h.followers i f₀ hf₀
    by_cases hcreated : f₀.point = .created
    · rw [if_pos hcreated] at hf
      subst hf
      refine ⟨hsound.guarded, hsound.behind, hsound.atEnd, fun hwaiting => ?_⟩
      rw [hcreated] at hwaiting
      cases hwaiting
    · rw [if_neg hcreated] at hf
      subst hf
      exact ⟨hsound.guarded, hsound.behind, hsound.atEnd, fun _ => .inr (.inl rfl)⟩
  · intro i line hpush
    change Function.update w.pushes id none i = _ at hpush
    by_cases hi : i = id
    · rw [hi, Function.update_self] at hpush
      cases hpush
    · rw [Function.update_of_ne hi] at hpush
      exact h.storing i line hpush

/-! ## The step lemma -/

/-- A reader never passes the end of the buffer. -/
theorem get_le {ring : RingBuffer} {reader reader' : Nat} {entry : RingBufferEntry}
    (hget : ring.get reader = (entry, reader')) (h : reader ≤ ring.nextIdx) :
    reader' ≤ ring.nextIdx := by
  rw [RingBuffer.get] at hget
  by_cases hend : reader ≥ ring.nextIdx
  · rw [dif_pos hend] at hget
    cases hget
    exact h
  · rw [dif_neg hend] at hget
    by_cases hlost : reader < ring.nextIdx - ring.entries.length
    · rw [dif_pos hlost] at hget
      cases hget
      exact Nat.sub_le _ _
    · rw [dif_neg hlost] at hget
      cases hget
      omega

theorem get_empty {ring : RingBuffer} {reader reader' : Nat}
    (hget : ring.get reader = (.empty, reader')) : reader' = reader ∧ ring.nextIdx ≤ reader := by
  have hle := (ring.get_empty_iff reader).mp (by rw [hget])
  rw [RingBuffer.get, dif_pos hle] at hget
  exact ⟨(congrArg Prod.snd hget).symm, hle⟩

theorem consistent_step {w w' : Shared} {m : WakeMove} (h : Consistent w)
    (hst : WakeStep w m w') : Consistent w' := by
  cases hst with
  | newReader _ =>
      refine consistent_setFollower h (.inl rfl) ?_
      rintro f ⟨⟩
      exact ⟨nofun, Nat.zero_le _, nofun, nofun⟩
  | creates hf hpoint =>
      refine consistent_setFollower h (.inl rfl) ?_
      rintro f ⟨⟩
      exact ⟨nofun, (h.followers _ _ hf).behind, nofun, nofun⟩
  | readerLocks hf hpoint hfree =>
      refine consistent_setFollower h (.inr (.inl hfree)) ?_
      rintro f ⟨⟩
      exact ⟨fun _ => rfl, (h.followers _ _ hf).behind, nofun, nofun⟩
  | yields hf hpoint hget _ =>
      have hsound := h.followers _ _ hf
      refine consistent_setFollower h (.inl rfl) ?_
      rintro f ⟨⟩
      exact ⟨fun _ => hsound.guarded (by rw [hpoint]; rfl), get_le hget hsound.behind, nofun, nofun⟩
  | findsNone hf hpoint hget =>
      have hsound := h.followers _ _ hf
      obtain ⟨hreader, hend⟩ := get_empty hget
      refine consistent_setFollower h (.inl rfl) ?_
      rintro f ⟨⟩
      exact ⟨fun _ => hsound.guarded (by rw [hpoint]; rfl), get_le hget hsound.behind,
        fun _ => hreader.trans (Nat.le_antisymm hsound.behind hend), nofun⟩
  | leaves hf hpoint =>
      have hsound := h.followers _ _ hf
      refine consistent_setFollower h (.inr (.inr (hsound.guarded (by rw [hpoint]; rfl)))) ?_
      rintro f ⟨⟩
      exact ⟨nofun, hsound.behind, nofun, fun _ => .inl (hsound.atEnd hpoint)⟩
  | continues hf hpoint =>
      have hsound := h.followers _ _ hf
      refine consistent_setFollower h (.inr (.inr (hsound.guarded (by rw [hpoint]; rfl)))) ?_
      rintro f ⟨⟩
      exact ⟨nofun, hsound.behind, nofun, nofun⟩
  | wakes hf hpoint _ =>
      refine consistent_setFollower h (.inl rfl) ?_
      rintro f ⟨⟩
      exact ⟨nofun, (h.followers _ _ hf).behind, nofun, nofun⟩
  | calls hpush =>
      exact consistent_setPush h (.inl rfl) (by rw [hpush]; exact nofun) nofun
  | pushLocks hpush hfree =>
      exact consistent_setPush h (.inr hfree) (by rw [hpush]; exact nofun) (fun _ _ => rfl)
  | stores hpush => exact consistent_stores h hpush
  | notifies _ => exact consistent_notifies h
  | @readerDrops id follower hf _ =>
      suffices hguard : (w.release (.consumer id)).guard = w.guard ∨ w.guard = none
          ∨ w.guard = some (.consumer id) from consistent_setFollower h hguard nofun
      by_cases hown : w.guard = some (.consumer id)
      · exact .inr (.inr hown)
      · exact .inl (if_neg hown)
  | pushDrops hpush =>
      exact consistent_setPush h (.inl rfl) (by rw [hpush]; exact nofun) nofun

/-! ## No wake-up is lost -/

/-- The future of this stream has been completed, or is completed by the notification of
    a push that has stored its line. -/
def Completes (w : Shared) (id : Nat) (follower : Follower) : Prop :=
  follower.notified = true
    ∨ ∃ push w' follower', w.pushes push = some .stored ∧ WakeStep w (.notifies push) w'
        ∧ w'.followers id = some follower' ∧ follower'.notified = true

theorem completes_of_coming {w : Shared} {id : Nat} {follower : Follower}
    (hf : w.followers id = some follower) (hwaiting : follower.point = .waiting)
    (h : w.Coming) : Completes w id follower := by
  obtain ⟨push, hpush⟩ := h
  refine .inr ⟨push, _, { follower with notified := true }, hpush, .notifies hpush, ?_, rfl⟩
  show (w.followers id).map _ = _
  rw [hf, Option.map_some, if_neg (by rw [hwaiting]; exact nofun)]

/-- **NO WAKE-UP IS LOST**: a stream that waits for its `Notified` has read everything
    that was stored, or its future has been completed, or is completed by a push that has
    stored its line; so it does not sleep beside a line that nobody announces. -/
theorem no_wakeup_lost {capacity : NonZeroUsize} {ms : List WakeMove} {w : Shared} {id : Nat}
    {follower : Follower} (hrun : Run WakeStep (.new capacity) ms w)
    (hf : w.followers id = some follower) (hwaiting : follower.point = .waiting) :
    (follower.reader = w.queue.nextIdx ∨ Completes w id follower)
      ∧ ((w.queue.get follower.reader).1 ≠ .empty → Completes w id follower) := by
  have hconsistent : Consistent w := hrun.invariant consistent_step (consistent_new capacity)
  have hsound := hconsistent.followers id follower hf
  have hcases : follower.reader = w.queue.nextIdx ∨ Completes w id follower := by
    rcases hsound.awake hwaiting with hend | hnotified | hcoming
    · exact .inl hend
    · exact .inr (.inl hnotified)
    · exact .inr (completes_of_coming hf hwaiting hcoming)
  refine ⟨hcases, fun hline => hcases.resolve_left fun hend => hline ?_⟩
  exact (w.queue.get_empty_iff follower.reader).mpr hend.ge

/-- A line is stored between the look of a stream and its wait. -/
theorem no_wakeup_lost_between :
    ∃ ms w follower, Run WakeStep (.new ⟨1, Nat.one_pos⟩) ms w ∧ w.followers 0 = some follower
      ∧ follower.point = .waiting ∧ follower.reader < w.queue.nextIdx
      ∧ Completes w 0 follower := by
  have hrun : ∃ w, Run WakeStep (.new ⟨1, Nat.one_pos⟩)
      [.newReader 0, .creates 0, .locks (.consumer 0), .findsNone 0, .leaves 0, .calls 0 "up",
        .locks (.caller 0), .stores 0] w
      ∧ w.followers 0 = some ⟨0, false, .waiting⟩ ∧ w.queue.nextIdx = 1 :=
    ⟨_, .cons (.newReader rfl) (.cons (.creates rfl (.inl rfl)) (.cons (.readerLocks rfl rfl rfl)
      (.cons (.findsNone rfl rfl rfl) (.cons (.leaves rfl rfl) (.cons (.calls rfl)
      (.cons (.pushLocks rfl rfl) (.single (.stores rfl)))))))), rfl, rfl⟩
  obtain ⟨w, hrun, hf, hnext⟩ := hrun
  refine ⟨_, w, _, hrun, hf, rfl, hnext ▸ Nat.one_pos, ?_⟩
  exact (no_wakeup_lost hrun hf rfl).1.resolve_left (by rw [hnext]; decide)

/-! ## The log of the one-threaded runtime -/

def point : Place → Point
  | .created => .created
  | .locking => .locking
  | .yielded => .yielded
  | .waiting => .waiting

def shown (stream : FollowStream) : Follower :=
  ⟨stream.reader, stream.notified, point stream.place⟩

def waitingPush : Job → Option PushPoint
  | .push line => some (.locking line)
  | .copyLogs => none

/-- Between two steps of the runtime only a stream at a yield has the guard. -/
def AtYield (w : LogWorld) (guard : Option Task) : Prop :=
  ∀ task, guard = some task → ∃ id stream, task = .consumer id ∧ w.streams id = some stream
    ∧ stream.place = .yielded

theorem atYield_none (w : LogWorld) : AtYield w none := by
  intro task htask
  cases htask

/-- What a log of the runtime is, step by step: no push is between its two steps. -/
structure Shows (w : LogWorld) (v : Shared) : Prop where
  queue : v.queue = w.queue
  guard : AtYield w v.guard
  followers : ∀ id, v.followers id = (w.streams id).map shown
  pushes : ∀ id, v.pushes id = (w.jobs id).bind waitingPush

theorem shows_new (capacity : NonZeroUsize) : Shows (.new capacity) (.new capacity) where
  queue := rfl
  guard := atYield_none _
  followers _ := rfl
  pushes _ := rfl

theorem shows_setStream {w w' : LogWorld} {v v' : Shared} {id : Nat} {stream : Option FollowStream}
    (h : Shows w v) (hstreams : w'.streams = (w.setStream id stream).streams)
    (hjobs : w'.jobs = w.jobs) (hqueue : v'.queue = w'.queue) (hpushes : v'.pushes = v.pushes)
    (hfollowers : v'.followers = Function.update v.followers id (stream.map shown))
    (hguard : AtYield w' v'.guard) : Shows w' v' where
  queue := hqueue
  guard := hguard
  followers i := by
    rw [hfollowers, hstreams]
    show _ = (if i = id then stream else w.streams i).map shown
    by_cases hi : i = id
    · rw [if_pos hi, hi, Function.update_self]
    · rw [if_neg hi, Function.update_of_ne hi]
      exact h.followers i
  pushes i := by
    rw [hpushes, hjobs]
    exact h.pushes i

/-- A stream that was not at a yield does not have the guard. -/
theorem atYield_setStream {w w' : LogWorld} {guard : Option Task} {id : Nat}
    {stream : Option FollowStream} (h : AtYield w guard)
    (hstreams : w'.streams = (w.setStream id stream).streams)
    (hplace : ∀ s, w.streams id = some s → s.place ≠ .yielded) : AtYield w' guard := by
  intro task htask
  obtain ⟨i, s, heq, hs, hyielded⟩ := h task htask
  have hi : i ≠ id := by
    intro hid
    rw [hid] at hs
    exact hplace s hs hyielded
  refine ⟨i, s, heq, ?_, hyielded⟩
  rw [hstreams]
  exact (if_neg hi).trans hs

/-- Who gets the mutex finds the guard free. -/
theorem guard_free {w : LogWorld} {v : Shared} {task : Task} {mutex : FairMutex Task}
    (hheld : Held w) (h : Shows w v) (hpoll : w.mutex.poll task = (true, mutex))
    (hplace : ∀ id s, task = .consumer id → w.streams id = some s → s.place ≠ .yielded) :
    v.guard = none := by
  cases hguard : v.guard with
  | none => rfl
  | some holder =>
      obtain ⟨i, s, -, hs, hyielded⟩ := h.guard holder hguard
      have howner := hheld i s hs hyielded
      rcases (FairMutex.poll_true hpoll).1 with hfree | hown
      · rw [hfree] at howner
        cases howner
      · have heq := Option.some.inj (hown.symm.trans howner)
        exact absurd hyielded (hplace i s heq hs)

/-- One advance of a stream is a run of its steps. -/
theorem shows_advanceStream {w : LogWorld} {v : Shared} {id : Nat} {stream : FollowStream}
    (hheld : Held w) (h : Shows w v) (hstream : w.streams id = some stream) :
    ∃ ms v', Run WakeStep v ms v' ∧ Shows (advanceStream w id stream).1 v' := by
  have hf : v.followers id = some (shown stream) := by
    rw [h.followers, hstream]
    rfl
  have hold : stream.place ≠ .yielded → ∀ s, w.streams id = some s → s.place ≠ .yielded := by
    intro hne s hs
    rw [← Option.some.inj (hstream.symm.trans hs)]
    exact hne
  have hpoint : (shown stream).point = point stream.place := rfl
  rw [advanceStream]
  cases hplace : stream.place with
  | created =>
      rw [hplace] at hpoint
      refine ⟨_, _, .single (.creates hf (.inl hpoint)), ?_⟩
      exact shows_setStream h rfl rfl h.queue rfl rfl
        (atYield_setStream h.guard rfl (hold (by rw [hplace]; decide)))
  | locking =>
      rw [hplace] at hpoint
      have hne : stream.place ≠ .yielded := by rw [hplace]; decide
      rcases hpoll : w.mutex.poll (.consumer id) with ⟨got, mutex⟩
      cases got with
      | false => exact ⟨[], v, .nil v, { h with }⟩
      | true =>
          have hfree := guard_free hheld h hpoll fun i s heq hs =>
            hold hne s (Task.consumer.inj heq ▸ hs)
          have hlocks := WakeStep.readerLocks hf hpoint hfree
          rcases hget : w.queue.get stream.reader with ⟨entry, reader⟩
          rw [← h.queue] at hget
          -- `locks` and the next step both set the stream.
          have htwice : ∀ f f' : Option Follower,
              Function.update (Function.update v.followers id f) id f'
                = Function.update v.followers id f' := fun f f' => Function.update_idem _ _ _
          have hyields : entry ≠ .empty → ∃ ms v', Run WakeStep v ms v'
              ∧ Shows ({ w with mutex := mutex }.setStream id
                (some { stream with reader := reader, place := .yielded })) v' := by
            intro hentry
            refine ⟨_, _, .cons hlocks (.single (.yields (Function.update_self ..) rfl hget hentry)),
              shows_setStream h rfl rfl h.queue rfl (htwice _ _) ?_⟩
            rintro task ⟨⟩
            exact ⟨id, _, rfl, if_pos rfl, rfl⟩
          cases entry with
          | line line => exact hyields (fun heq => RingBufferEntry.noConfusion heq)
          | lost => exact hyields (fun heq => RingBufferEntry.noConfusion heq)
          | empty =>
              refine ⟨_, _, .cons hlocks (.cons (.findsNone (Function.update_self ..) rfl hget)
                (.single (.leaves (Function.update_self ..) rfl))), ?_⟩
              refine shows_setStream h rfl rfl h.queue rfl ?_ (atYield_none _)
              show Function.update (Function.update (Function.update v.followers id _) id _) id _ = _
              rw [htwice, htwice]
              rfl
  | yielded =>
      rw [hplace] at hpoint
      exact ⟨_, _, .single (.continues hf hpoint),
        shows_setStream h rfl rfl h.queue rfl rfl (atYield_none _)⟩
  | waiting =>
      rw [hplace] at hpoint
      by_cases hnotified : stream.notified = true
      · rw [if_pos hnotified]
        refine ⟨_, _, .cons (.wakes hf hpoint hnotified)
          (.single (.creates (Function.update_self ..) (.inr rfl))), ?_⟩
        exact shows_setStream h rfl rfl h.queue rfl (Function.update_idem _ _ _)
          (atYield_setStream h.guard rfl (hold (by rw [hplace]; decide)))
      · rw [if_neg hnotified]
        exact ⟨[], v, .nil v, { h with }⟩

theorem shows_setJob {w w' : LogWorld} {v v' : Shared} {id : Nat} {job : Option Job}
    (h : Shows w v) (hstreams : w'.streams = w.streams) (hjobs : w'.jobs = (w.setJob id job).jobs)
    (hqueue : v'.queue = w'.queue) (hfollowers : v'.followers = v.followers)
    (hpushes : v'.pushes = Function.update v.pushes id (job.bind waitingPush))
    (hguard : v'.guard = v.guard) : Shows w' v' where
  queue := hqueue
  guard task htask := by
    rw [hstreams]
    exact h.guard task (hguard ▸ htask)
  followers i := by
    rw [hfollowers, hstreams]
    exact h.followers i
  pushes i := by
    rw [hpushes, hjobs]
    show _ = (if i = id then job else w.jobs i).bind waitingPush
    by_cases hi : i = id
    · rw [if_pos hi, hi, Function.update_self]
    · rw [if_neg hi, Function.update_of_ne hi]
      exact h.pushes i

/-- A notification of the runtime completes the same futures. -/
theorem shows_notifyWaiters {w : LogWorld} {v : Shared} (h : Shows w v) :
    Shows w.notifyWaiters v.notifyWaiters where
  queue := h.queue
  guard task htask := by
    obtain ⟨i, s, heq, hs, hyielded⟩ := h.guard task htask
    refine ⟨i, { s with notified := true }, heq, ?_, hyielded⟩
    show (w.streams i).map _ = _
    rw [hs, Option.map_some, if_neg (by rw [hyielded]; decide)]
  followers i := by
    show (v.followers i).map _ = ((w.streams i).map _).map shown
    rw [h.followers i]
    cases w.streams i with
    | none => rfl
    | some s =>
        rcases s with ⟨reader, notified, place⟩
        cases place <;> rfl
  pushes := h.pushes

/-- One advance of a push or a copy is a run of its steps. -/
theorem shows_advanceJob {w : LogWorld} {v : Shared} {id : Nat} {job : Job} (hheld : Held w)
    (h : Shows w v) (hjob : w.jobs id = some job) :
    ∃ ms v', Run WakeStep v ms v' ∧ Shows (advanceJob w id job).1 v' := by
  have hpush : v.pushes id = waitingPush job := by
    rw [h.pushes, hjob]
    rfl
  rw [advanceJob]
  rcases hpoll : w.mutex.poll (.caller id) with ⟨got, mutex⟩
  cases got with
  | false => exact ⟨[], v, .nil v, { h with }⟩
  | true =>
      cases job with
      | push line =>
          have hfree := guard_free hheld h hpoll fun _ _ heq => by cases heq
          refine ⟨_, _, .cons (.pushLocks hpush hfree) (.cons (.stores (Function.update_self ..))
            (.single (.notifies (Function.update_self ..)))), ?_⟩
          refine shows_notifyWaiters ?_
          refine shows_setJob h rfl rfl (congrArg (RingBuffer.push · line) h.queue) rfl ?_ hfree.symm
          show Function.update (Function.update (Function.update v.pushes id _) id _) id _ = _
          rw [Function.update_idem, Function.update_idem]
          rfl
      | copyLogs =>
          exact ⟨[], v, .nil v, shows_setJob h rfl rfl h.queue rfl
            (Function.update_eq_self_iff.mpr hpush.symm).symm rfl⟩

/-- A future that is dropped gives up the guard. -/
theorem shows_remove {w : LogWorld} {v : Shared} {task : Task} (h : Shows w v)
    (halive : w.alive task = true) : ∃ ms v', Run WakeStep v ms v' ∧ Shows (w.remove task) v' := by
  cases task with
  | consumer id =>
      obtain ⟨stream, hstream⟩ := Option.isSome_iff_exists.mp halive
      have hf : v.followers id = some (shown stream) := by
        rw [h.followers, hstream]
        rfl
      have hsuspended : (shown stream).point.suspended = true := by
        rcases stream with ⟨reader, notified, place⟩
        cases place <;> rfl
      refine ⟨_, _, .single (.readerDrops hf hsuspended), shows_setStream h rfl rfl h.queue rfl rfl ?_⟩
      intro task htask
      change (if v.guard = some (.consumer id) then none else v.guard) = some task at htask
      by_cases hown : v.guard = some (.consumer id)
      · rw [if_pos hown] at htask
        cases htask
      · rw [if_neg hown] at htask
        obtain ⟨i, s, heq, hs, hyielded⟩ := h.guard task htask
        have hi : i ≠ id := by
          intro hid
          rw [htask, heq, hid] at hown
          exact hown rfl
        exact ⟨i, s, heq, (if_neg hi).trans hs, hyielded⟩
  | caller id =>
      obtain ⟨job, hjob⟩ := Option.isSome_iff_exists.mp halive
      have hpush : v.pushes id = waitingPush job := by
        rw [h.pushes, hjob]
        rfl
      cases job with
      | push line =>
          exact ⟨_, _, .single (.pushDrops hpush), shows_setJob h rfl rfl h.queue rfl rfl rfl⟩
      | copyLogs =>
          exact ⟨[], v, .nil v, shows_setJob h rfl rfl h.queue rfl
            (Function.update_eq_self_iff.mpr hpush.symm).symm rfl⟩

/-- **The log of the runtime refines this one**: every step of it is a run of these steps. -/
theorem shows_step {w w' : LogWorld} {v : Shared} {label : Move × Option Output} (hheld : Held w)
    (h : Shows w v) (hstep : LogStep w label w') :
    ∃ ms v', Run WakeStep v ms v' ∧ Shows w' v' := by
  cases stepped_of_step hstep with
  | @newReader id _ hstream =>
      have hf : v.followers id = none := by
        rw [h.followers, hstream]
        rfl
      refine ⟨_, _, .single (.newReader hf), shows_setStream h rfl rfl h.queue rfl rfl ?_⟩
      refine atYield_setStream h.guard rfl fun s hs => ?_
      rw [hstream] at hs
      cases hs
  | @call id job _ hjob =>
      have hpush : v.pushes id = none := by
        rw [h.pushes, hjob]
        rfl
      cases job with
      | push line =>
          exact ⟨_, _, .single (.calls hpush), shows_setJob h rfl rfl h.queue rfl rfl rfl⟩
      | copyLogs =>
          exact ⟨[], v, .nil v, shows_setJob h rfl rfl h.queue rfl
            (Function.update_eq_self_iff.mpr hpush.symm).symm rfl⟩
  | resume | outOfBudget | suspend => exact ⟨[], v, .nil v, { h with }⟩
  | stream _ hstream hadv =>
      have hshows := shows_advanceStream hheld h hstream
      rwa [hadv] at hshows
  | job _ hjob hadv =>
      have hshows := shows_advanceJob hheld h hjob
      rwa [hadv] at hshows
  | drop _ halive => exact shows_remove h halive

theorem shows_run {w w' : LogWorld} {v : Shared} {labels : List (Move × Option Output)}
    (hheld : Held w) (h : Shows w v) (hrun : Run LogStep w labels w') :
    ∃ ms v', Run WakeStep v ms v' ∧ Shows w' v' := by
  induction hrun generalizing v with
  | nil _ => exact ⟨[], v, .nil v, h⟩
  | cons hst _ ih =>
      obtain ⟨ms, v₁, hrun₁, h₁⟩ := shows_step hheld h hst
      obtain ⟨ms', v', hrun', h'⟩ := ih (held_step hheld hst) h₁
      exact ⟨ms ++ ms', v', hrun₁.append hrun', h'⟩

/-- **On one thread no stream sleeps beside a line**: there a push notifies before another
    task runs. -/
theorem sleeper_has_read_all {capacity : NonZeroUsize} {w : LogWorld}
    {labels : List (Move × Option Output)} {id : Nat} {stream : FollowStream}
    (hrun : Run LogStep (.new capacity) labels w) (hstream : w.streams id = some stream)
    (hwaiting : stream.place = .waiting) (hnotified : stream.notified = false) :
    stream.reader = w.queue.nextIdx := by
  obtain ⟨ms, v, hrun', h⟩ := shows_run (held_new capacity) (shows_new capacity) hrun
  have hconsistent : Consistent v := hrun'.invariant consistent_step (consistent_new capacity)
  have hf : v.followers id = some (shown stream) := by
    rw [h.followers, hstream]
    rfl
  have hsound := hconsistent.followers id _ hf
  rw [h.queue] at hsound
  rcases hsound.awake (congrArg point hwaiting) with hend | hwoken | ⟨push, hpush⟩
  · exact hend
  · exact absurd (hnotified.symm.trans hwoken) Bool.false_ne_true
  · rw [h.pushes] at hpush
    obtain ⟨job, -, hjob⟩ := Option.bind_eq_some_iff.mp hpush
    cases job <;> cases hjob

end BeamLogWakeups
