import BeamInit.Os

/-! # The log store — a ring buffer with stable indices

    `RingBuffer` emulates a list whose first `nextIdx - entries.length` entries
    have been evicted, so that readers can refer to entries by a stable index.
    The two facts that the index arithmetic needs are fields of the structure:
    a buffer never stores more than was pushed, nor more than its capacity. -/

namespace BeamLogs

open BeamApi BeamOs

/-- `NonZeroUsize`. -/
abbrev NonZeroUsize := { n : Nat // 0 < n }

/-- A sync ring buffer for log entries. -/
structure RingBuffer where
  entries : List String
  nextIdx : Nat
  capacity : NonZeroUsize
  stored : entries.length ≤ nextIdx
  bounded : entries.length ≤ capacity.val
deriving DecidableEq

/-- `while self.entries.len() > self.capacity.get() { self.entries.pop_front(); }` -/
def popFrontWhile (capacity : Nat) : List String → List String
  | [] => []
  | e :: rest => if rest.length + 1 > capacity then popFrontWhile capacity rest else e :: rest

/-- The loop keeps the last `capacity` entries. -/
theorem popFrontWhile_eq_drop (capacity : Nat) (entries : List String) :
    popFrontWhile capacity entries = entries.drop (entries.length - capacity) := by
  induction entries with
  | nil => exact List.drop_nil.symm
  | cons e rest ih =>
      by_cases h : rest.length + 1 > capacity
      · have hlen : (e :: rest).length - capacity = rest.length - capacity + 1 := by
          simp only [List.length_cons]; omega
        rw [hlen, List.drop_succ_cons, ← ih]
        exact if_pos h
      · have hlen : (e :: rest).length - capacity = 0 := by
          simp only [List.length_cons]; omega
        rw [hlen, List.drop_zero]
        exact if_neg h

theorem popFrontWhile_length (capacity : Nat) (entries : List String) :
    (popFrontWhile capacity entries).length = min entries.length capacity := by
  rw [popFrontWhile_eq_drop, List.length_drop]
  omega

namespace RingBuffer

def new (capacity : NonZeroUsize) : RingBuffer :=
  ⟨[], 0, capacity, Nat.le_refl _, Nat.zero_le _⟩

def push (ring : RingBuffer) (line : String) : RingBuffer where
  entries := popFrontWhile ring.capacity (ring.entries ++ [line])
  nextIdx := ring.nextIdx + 1
  capacity := ring.capacity
  stored := by
    have := ring.stored
    rw [popFrontWhile_length, List.length_append, List.length_singleton]
    omega
  bounded := by
    rw [popFrontWhile_length]
    exact Nat.min_le_right _ _

end RingBuffer

/-- What a reader finds at its position. -/
inductive RingBufferEntry where
  | line (line : String)
  | lost
  | empty
deriving DecidableEq

/-- `RingBuffer::get`: the entry and the reader position it leaves behind. -/
def RingBuffer.get (ring : RingBuffer) (reader : Nat) : RingBufferEntry × Nat :=
  if h : reader ≥ ring.nextIdx then (.empty, reader)
  else if hlost : reader < ring.nextIdx - ring.entries.length then
    (.lost, ring.nextIdx - ring.entries.length)
  else
    have hidx : reader - (ring.nextIdx - ring.entries.length) < ring.entries.length := by
      have := ring.stored
      omega
    (.line (ring.entries[reader - (ring.nextIdx - ring.entries.length)]), reader + 1)

/-- A reader finds nothing exactly when it has passed every entry pushed. -/
theorem RingBuffer.get_empty_iff (ring : RingBuffer) (reader : Nat) :
    (ring.get reader).1 = .empty ↔ ring.nextIdx ≤ reader := by
  rw [RingBuffer.get]
  by_cases h : reader ≥ ring.nextIdx
  · rw [dif_pos h]
    exact ⟨fun _ => h, fun _ => rfl⟩
  · rw [dif_neg h]
    constructor
    · intro he
      split at he <;> exact absurd he (by simp)
    · intro hle; exact absurd hle h

/-- A log store with support for multiple async readers and a single pipe writer. -/
structure Logs where
  queue : RingBuffer
  abortHandle : Option AbortHandle
deriving DecidableEq

namespace Logs

def new (capacity : NonZeroUsize) : Logs := ⟨RingBuffer.new capacity, none⟩

/-- `new_writer`: the store with the new writer task, the task it aborts so that
    there is a single writer, and the new task. -/
def newWriter (logs : Logs) (writer : Except IoError AbortHandle) :
    Except IoError (Logs × Option AbortHandle × AbortHandle) :=
  match writer with
  | .error e => .error e
  | .ok handle => .ok ({ logs with abortHandle := some handle }, logs.abortHandle, handle)

/-- `copy_logs`: the buffered lines, oldest first. -/
def copyLogs (logs : Logs) : List String := logs.queue.entries

/-- `AsyncRingBuffer::push`, once it holds the lock. -/
def push (logs : Logs) (line : String) : Logs := { logs with queue := logs.queue.push line }

end Logs

end BeamLogs
