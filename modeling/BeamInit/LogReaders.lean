import BeamInit.Logs
import BeamInit.Runs

/-! # Log readers — what a reader of the ring buffer sees

    Lines are pushed and a reader that started at position 0 takes entries, in any
    order.  The buffer is the tail of the lines pushed so far, and the position of
    the reader is an index into them: every entry it takes either is the line at
    that index, or moves it past lines that were evicted, or says there is nothing
    more.  All that a reader is promised follows from these three cases. -/

namespace BeamLogReaders

open BeamApi BeamOs BeamLogs Runs

/-! ## Pushes and reads -/

/-- A log store and one of its readers. -/
structure Reading where
  logs : Logs
  reader : Nat

inductive Access where
  | push (line : String)
  /-- `RingBuffer::get` by the reader at this position, and what it returned. -/
  | get (reader : Nat) (entry : RingBufferEntry)
deriving DecidableEq

inductive ReadStep : Reading → Access → Reading → Prop where
  | push {s : Reading} {line : String} :
      ReadStep s (.push line) { s with logs := s.logs.push line }
  | get {s : Reading} {entry : RingBufferEntry} {reader : Nat} :
      s.logs.queue.get s.reader = (entry, reader) →
      ReadStep s (.get s.reader entry) { s with reader := reader }

def Reading.new (capacity : NonZeroUsize) : Reading := ⟨Logs.new capacity, 0⟩

def pushedLine : Access → Option String
  | .push line => some line
  | .get .. => none

/-- A line the reader received, with its index. -/
def receivedLine : Access → Option (Nat × String)
  | .get reader (.line line) => some (reader, line)
  | _ => none

/-- The lines pushed, in order. -/
def pushes (accesses : List Access) : List String := accesses.filterMap pushedLine

/-- The lines received, in order, with their indices. -/
def received (accesses : List Access) : List (Nat × String) := accesses.filterMap receivedLine

@[simp] theorem pushes_append (before after : List Access) :
    pushes (before ++ after) = pushes before ++ pushes after := List.filterMap_append

@[simp] theorem pushes_get (reader : Nat) (entry : RingBufferEntry) (rest : List Access) :
    pushes (.get reader entry :: rest) = pushes rest := rfl

theorem received_append (before after : List Access) :
    received (before ++ after) = received before ++ received after := List.filterMap_append

theorem mem_received {accesses : List Access} {index : Nat} {line : String} :
    (index, line) ∈ received accesses ↔ .get index (.line line) ∈ accesses := by
  rw [received]
  rw [List.mem_filterMap]
  constructor
  · rintro ⟨access, hmem, haccess⟩
    unfold receivedLine at haccess
    split at haccess
    · cases haccess
      exact hmem
    · exact nomatch haccess
  · exact fun hmem => ⟨_, hmem, rfl⟩

/-! ## The buffer is the tail of what was pushed -/

/-- The buffer after the lines `pushed`, with a reader that has not overtaken them. -/
structure Mirrors (pushed : List String) (s : Reading) : Prop where
  next : s.logs.queue.nextIdx = pushed.length
  tail : s.logs.queue.entries = pushed.drop (pushed.length - s.logs.queue.capacity.val)
  behind : s.reader ≤ pushed.length

theorem mirrors_new (capacity : NonZeroUsize) : Mirrors [] (.new capacity) :=
  ⟨rfl, List.drop_nil.symm, Nat.le_refl 0⟩

theorem drop_push {capacity : Nat} (pushed : List String) (line : String) :
    popFrontWhile capacity (pushed.drop (pushed.length - capacity) ++ [line])
      = (pushed ++ [line]).drop ((pushed ++ [line]).length - capacity) := by
  have hold : pushed.drop (pushed.length - capacity) ++ [line]
      = (pushed ++ [line]).drop (pushed.length - capacity) := by
    rw [List.drop_append_of_le_length (by omega)]
  rw [popFrontWhile_eq_drop, hold, List.drop_drop]
  congr 1
  simp only [List.length_append, List.length_drop, List.length_singleton]
  omega

theorem mirrors_push {pushed : List String} {s : Reading} (h : Mirrors pushed s) (line : String) :
    Mirrors (pushed ++ [line]) { s with logs := s.logs.push line } := by
  refine ⟨?_, ?_, ?_⟩
  · show s.logs.queue.nextIdx + 1 = _
    rw [h.next, List.length_append, List.length_singleton]
  · show popFrontWhile s.logs.queue.capacity.val (s.logs.queue.entries ++ [line]) = _
    rw [h.tail]
    exact drop_push pushed line
  · rw [List.length_append]
    exact Nat.le_add_right_of_le h.behind

/-- **What a reader finds**: the end, an evicted line, or the line at its index. -/
inductive Found (pushed : List String) (capacity reader : Nat) : RingBufferEntry → Nat → Prop where
  | empty : reader = pushed.length → Found pushed capacity reader .empty reader
  | lost : reader + capacity < pushed.length →
      Found pushed capacity reader .lost (pushed.length - capacity)
  | line {line : String} : pushed.length ≤ reader + capacity → pushed[reader]? = some line →
      Found pushed capacity reader (.line line) (reader + 1)

theorem get_found {pushed : List String} {s : Reading} (h : Mirrors pushed s)
    {entry : RingBufferEntry} {reader : Nat} (hget : s.logs.queue.get s.reader = (entry, reader)) :
    Found pushed s.logs.queue.capacity.val s.reader entry reader := by
  have hnext := h.next
  have hbehind := h.behind
  have hpos := s.logs.queue.capacity.property
  have hlen : s.logs.queue.entries.length
      = pushed.length - (pushed.length - s.logs.queue.capacity.val) := by
    rw [h.tail, List.length_drop]
  rw [RingBuffer.get] at hget
  by_cases hend : s.reader ≥ s.logs.queue.nextIdx
  · rw [dif_pos hend] at hget
    cases hget
    exact .empty (by omega)
  · rw [dif_neg hend] at hget
    by_cases hlost : s.reader < s.logs.queue.nextIdx - s.logs.queue.entries.length
    · have hfirst : s.logs.queue.nextIdx - s.logs.queue.entries.length
          = pushed.length - s.logs.queue.capacity.val := by omega
      rw [dif_pos hlost, hfirst] at hget
      cases hget
      exact .lost (by omega)
    · rw [dif_neg hlost] at hget
      cases hget
      refine .line (by omega) ?_
      have hidx : pushed.length - s.logs.queue.capacity.val
          + (s.reader - (s.logs.queue.nextIdx - s.logs.queue.entries.length)) = s.reader := by omega
      rw [← List.getElem?_eq_getElem, h.tail, List.getElem?_drop, ← h.tail, hidx]

/-- The step lemma: a push extends the lines, a read leaves them as they are. -/
theorem mirrors_step {pushed : List String} {s s' : Reading} {access : Access}
    (h : Mirrors pushed s) (hstep : ReadStep s access s') : Mirrors (pushed ++ pushes [access]) s' := by
  cases hstep with
  | push => exact mirrors_push h _
  | get hget =>
      rw [pushes_get, show pushes [] = [] from rfl, List.append_nil]
      refine ⟨h.next, h.tail, ?_⟩
      have hbehind := h.behind
      cases get_found h hget with
      | empty _ => exact hbehind
      | lost _ => exact Nat.sub_le _ _
      | line _ hline => exact (List.getElem?_eq_some_iff.mp hline).1

theorem capacity_step {s s' : Reading} {access : Access} (h : ReadStep s access s') :
    s'.logs.queue.capacity = s.logs.queue.capacity := by
  cases h with
  | push | get _ => rfl

/-- The run lemma. -/
theorem mirrors_run {pushed : List String} {s s' : Reading} {accesses : List Access}
    (h : Mirrors pushed s) (hrun : Run ReadStep s accesses s') :
    Mirrors (pushed ++ pushes accesses) s' := by
  induction hrun generalizing pushed with
  | nil s => exact (List.append_nil pushed).symm ▸ h
  | @cons _ _ _ access rest hstep _ ih =>
      have hsplit : pushes (access :: rest) = pushes [access] ++ pushes rest :=
        pushes_append [access] rest
      rw [hsplit, ← List.append_assoc]
      exact ih (mirrors_step h hstep)

theorem capacity_run {s s' : Reading} {accesses : List Access} (hrun : Run ReadStep s accesses s') :
    s'.logs.queue.capacity = s.logs.queue.capacity := by
  induction hrun with
  | nil _ => rfl
  | cons hstep _ ih => exact ih.trans (capacity_step hstep)

/-! ## Positions -/

/-- A step moves the reader by what it got, and to no index it skipped or passed. -/
theorem reader_step {pushed : List String} {s s' : Reading} {access : Access}
    (h : Mirrors pushed s) (hstep : ReadStep s access s') : s.reader ≤ s'.reader := by
  cases hstep with
  | push => exact Nat.le_refl _
  | @get entry next hget =>
      show s.reader ≤ next
      cases get_found h hget with
      | empty _ => exact Nat.le_refl _
      | lost _ => omega
      | line _ _ => omega

theorem reader_run {pushed : List String} {s s' : Reading} {accesses : List Access}
    (h : Mirrors pushed s) (hrun : Run ReadStep s accesses s') : s.reader ≤ s'.reader := by
  induction hrun generalizing pushed with
  | nil _ => exact Nat.le_refl _
  | cons hstep _ ih => exact Nat.le_trans (reader_step h hstep) (ih (mirrors_step h hstep))

/-- The state in which an access of a run was made, and the one it left. -/
theorem access_state {pushed : List String} {s s' : Reading} {before after : List Access}
    {access : Access} (h : Mirrors pushed s)
    (hrun : Run ReadStep s (before ++ access :: after) s') :
    ∃ s₁ s₂, Run ReadStep s before s₁ ∧ Mirrors (pushed ++ pushes before) s₁
      ∧ ReadStep s₁ access s₂ ∧ Run ReadStep s₂ after s' := by
  obtain ⟨s₁, hbefore, hrest⟩ := hrun.split
  cases hrest with
  | cons hstep hafter => exact ⟨s₁, _, hbefore, mirrors_run h hbefore, hstep, hafter⟩

/-- The lines received lie between the positions of the reader at both ends. -/
theorem received_between {pushed : List String} {s s' : Reading} {accesses : List Access}
    {index : Nat} {line : String} (h : Mirrors pushed s) (hrun : Run ReadStep s accesses s')
    (hmem : (index, line) ∈ received accesses) : s.reader ≤ index ∧ index < s'.reader := by
  obtain ⟨before, after, rfl⟩ := List.append_of_mem (mem_received.mp hmem)
  obtain ⟨s₁, s₂, hbefore, hmid, hstep, hafter⟩ := access_state h hrun
  have hlow := reader_run h hbefore
  have hhigh := reader_run (mirrors_step hmid hstep) hafter
  cases hstep with
  | get hget =>
      cases get_found hmid hget with
      | line _ _ => exact ⟨hlow, hhigh⟩

/-- No line is received twice or out of order. -/
theorem received_sorted {pushed : List String} {s s' : Reading} {accesses : List Access}
    (h : Mirrors pushed s) (hrun : Run ReadStep s accesses s') :
    (received accesses).Pairwise (fun a b => a.1 < b.1) := by
  induction hrun generalizing pushed with
  | nil _ => exact .nil
  | @cons s s₁ s' access rest hstep hrest ih =>
      have hmirror := mirrors_step h hstep
      have htail := ih hmirror
      cases hstep with
      | push => exact htail
      | get hget =>
          cases get_found h hget with
          | empty _ | lost _ => exact htail
          | line _ _ =>
              refine List.Pairwise.cons (fun p hp => ?_) htail
              exact (received_between hmirror hrest hp).1

/-- What is received at an index is the line pushed there. -/
theorem received_pushed {pushed : List String} {s s' : Reading} {accesses : List Access}
    {index : Nat} {line : String} (h : Mirrors pushed s) (hrun : Run ReadStep s accesses s')
    (hmem : (index, line) ∈ received accesses) :
    (pushed ++ pushes accesses)[index]? = some line := by
  obtain ⟨before, after, rfl⟩ := List.append_of_mem (mem_received.mp hmem)
  obtain ⟨s₁, s₂, -, hmid, hstep, -⟩ := access_state h hrun
  cases hstep with
  | get hget =>
      cases get_found hmid hget with
      | line _ hline =>
          rw [pushes_append, ← List.append_assoc,
            List.getElem?_append_left (List.getElem?_eq_some_iff.mp hline).1]
          exact hline

/-! ## Lines that are skipped -/

/-- An index the reader has passed without receiving it was skipped by a `Lost`,
    and had been evicted by then. -/
theorem skipped_evicted {pushed : List String} {s s' : Reading} {accesses : List Access} {k : Nat}
    (h : Mirrors pushed s) (hrun : Run ReadStep s accesses s') (hlow : s.reader ≤ k)
    (hhigh : k < s'.reader) (hnot : k ∉ (received accesses).map Prod.fst) :
    ∃ before reader after, accesses = before ++ .get reader .lost :: after ∧ reader ≤ k
      ∧ k + s.logs.queue.capacity.val < (pushed ++ pushes before).length := by
  induction hrun generalizing pushed with
  | nil _ => omega
  | @cons s s₁ s' access rest hstep hrest ih =>
      have hmirror := mirrors_step h hstep
      have hcapacity := capacity_step hstep
      -- skipped later on: the first access goes in front
      have hlater : s₁.reader ≤ k → k ∉ (received rest).map Prod.fst →
          ∃ before reader after, access :: rest = before ++ .get reader .lost :: after ∧ reader ≤ k
            ∧ k + s.logs.queue.capacity.val < (pushed ++ pushes before).length := by
        intro hle hrest'
        obtain ⟨before, reader, after, heq, hreader, hevicted⟩ := ih hmirror hle hhigh hrest'
        refine ⟨access :: before, reader, after, by rw [heq, List.cons_append], hreader, ?_⟩
        rw [hcapacity, List.append_assoc, ← pushes_append] at hevicted
        exact hevicted
      cases hstep with
      | push => exact hlater hlow hnot
      | @get entry next hget =>
          by_cases hpassed : next ≤ k
          · refine hlater hpassed fun hmem => hnot ?_
            obtain ⟨p, hp, rfl⟩ := List.mem_map.mp hmem
            refine List.mem_map.mpr ⟨p, ?_, rfl⟩
            exact (received_append [_] rest) ▸ List.mem_append_right _ hp
          · cases get_found h hget with
            | empty _ => omega
            | lost hfar =>
                refine ⟨[], s.reader, rest, rfl, hlow, ?_⟩
                rw [show pushes [] = [] from rfl, List.append_nil]
                omega
            | @line text _ _ =>
                obtain rfl : k = s.reader := by omega
                exact absurd (List.mem_map.mpr ⟨(s.reader, text), List.mem_cons_self, rfl⟩) hnot

/-- **Between two lines, `Lost` is returned exactly when lines were skipped.** -/
theorem lost_iff_moved {pushed : List String} {s s' : Reading} {accesses : List Access}
    (h : Mirrors pushed s) (hrun : Run ReadStep s accesses s') (hnone : received accesses = []) :
    (∃ reader, .get reader .lost ∈ accesses) ↔ s.reader < s'.reader := by
  induction hrun generalizing pushed with
  | nil _ => exact ⟨fun ⟨_, hmem⟩ => (List.not_mem_nil hmem).elim, fun hlt => (Nat.lt_irrefl _ hlt).elim⟩
  | @cons s s₁ s' access rest hstep hrest ih =>
      have hmirror := mirrors_step h hstep
      have hmono := reader_run hmirror hrest
      have hrest' : received rest = [] := by
        rw [show access :: rest = [access] ++ rest from rfl, received_append] at hnone
        exact (List.append_eq_nil_iff.mp hnone).2
      have hih := ih hmirror hrest'
      -- an access that moves nothing and is not a `Lost`
      have hsame : s₁.reader = s.reader → (∀ reader, access ≠ .get reader .lost) →
          ((∃ reader, .get reader .lost ∈ access :: rest) ↔ s.reader < s'.reader) := by
        intro hreader hne
        rw [← hreader, ← hih]
        exact exists_congr fun reader =>
          ⟨fun hmem => (List.mem_cons.mp hmem).resolve_left (hne reader).symm, List.mem_cons_of_mem _⟩
      cases hstep with
      | push => exact hsame rfl nofun
      | @get entry next hget =>
          have hmono' : next ≤ s'.reader := hmono
          cases get_found h hget with
          | empty _ => exact hsame rfl nofun
          | lost hfar =>
              exact ⟨fun _ => by omega, fun _ => ⟨s.reader, List.mem_cons_self⟩⟩
          | line _ _ => exact nomatch hnone

/-- Without a `Lost`, the indices received are all those the reader has passed. -/
theorem received_of_no_lost {pushed : List String} {s s' : Reading} {accesses : List Access}
    (h : Mirrors pushed s) (hrun : Run ReadStep s accesses s')
    (hnone : ∀ reader, .get reader .lost ∉ accesses) :
    (received accesses).map Prod.fst = List.range' s.reader (s'.reader - s.reader) := by
  induction hrun generalizing pushed with
  | nil s => rw [Nat.sub_self]; rfl
  | @cons s s₁ s' access rest hstep hrest ih =>
      have hmirror := mirrors_step h hstep
      have hmono := reader_run hmirror hrest
      have hih := ih hmirror fun reader hmem => hnone reader (List.mem_cons_of_mem _ hmem)
      cases hstep with
      | push => exact hih
      | get hget =>
          cases get_found h hget with
          | empty _ => exact hih
          | lost _ => exact absurd List.mem_cons_self (hnone s.reader)
          | line _ _ =>
              have hmono' : s.reader + 1 ≤ s'.reader := hmono
              have hlen : s'.reader - s.reader = s'.reader - (s.reader + 1) + 1 := by omega
              rw [hlen, List.range'_succ]
              exact congrArg (s.reader :: ·) hih

/-- A `Lost` skips the line at the position of the reader, which it never receives. -/
theorem lost_skips {pushed : List String} {s s' : Reading} {before after : List Access}
    {reader : Nat} (h : Mirrors pushed s)
    (hrun : Run ReadStep s (before ++ .get reader .lost :: after) s') :
    reader < (pushed ++ pushes before).length
      ∧ reader ∉ (received (before ++ .get reader .lost :: after)).map Prod.fst := by
  obtain ⟨s₁, s₂, hbefore, hmid, hstep, hafter⟩ := access_state h hrun
  have hmid' := mirrors_step hmid hstep
  cases hstep with
  | @get _ next hget =>
      cases get_found hmid hget with
      | lost hfar =>
          refine ⟨by omega, fun hmem => ?_⟩
          obtain ⟨⟨index, line⟩, hp, rfl⟩ := List.mem_map.mp hmem
          rcases List.mem_append.mp (received_append _ _ ▸ hp) with hearlier | hlater
          · exact Nat.lt_irrefl _ (received_between h hbefore hearlier).2
          · have hlater' : (s₁.reader, line) ∈ received after := hlater
            have hlow : _ - _ ≤ s₁.reader := (received_between hmid' hafter hlater').1
            omega

/-- `Empty` says that the reader has passed every line pushed so far. -/
theorem empty_iff {pushed : List String} {s s' : Reading} {before after : List Access}
    {reader : Nat} {entry : RingBufferEntry} (h : Mirrors pushed s)
    (hrun : Run ReadStep s (before ++ .get reader entry :: after) s') :
    entry = .empty ↔ reader = (pushed ++ pushes before).length := by
  obtain ⟨s₁, s₂, -, hmid, hstep, -⟩ := access_state h hrun
  cases hstep with
  | get hget =>
      cases get_found hmid hget with
      | empty hend => exact iff_of_true rfl hend
      | lost hfar => exact iff_of_false nofun (by omega)
      | line _ hline =>
          have := (List.getElem?_eq_some_iff.mp hline).1
          exact iff_of_false nofun (by omega)

/-- A reader that is never more than a buffer behind is never told of a loss. -/
theorem no_lost {pushed : List String} {s s' : Reading} {accesses : List Access}
    (h : Mirrors pushed s) (hrun : Run ReadStep s accesses s')
    (hnear : ∀ before reader entry after, accesses = before ++ .get reader entry :: after →
      (pushed ++ pushes before).length ≤ reader + s.logs.queue.capacity.val) :
    ∀ reader, .get reader .lost ∉ accesses := by
  intro reader hmem
  obtain ⟨before, after, rfl⟩ := List.append_of_mem hmem
  have hclose := hnear before reader .lost after rfl
  obtain ⟨s₁, s₂, hbefore, hmid, hstep, -⟩ := access_state h hrun
  rw [← capacity_run hbefore] at hclose
  cases hstep with
  | get hget =>
      cases get_found hmid hget with
      | lost hfar => omega

/-! ## What the reader is promised -/

/-- What a reader that started at position 0 has seen of the lines pushed. -/
structure Follows (capacity : NonZeroUsize) (accesses : List Access) (s : Reading) : Prop where
  /-- The buffer, and so `copy_logs`, has the last lines in the order pushed. -/
  copied : s.logs.copyLogs = (pushes accesses).drop
    ((pushes accesses).length - min (pushes accesses).length capacity.val)
  behind : s.reader ≤ (pushes accesses).length
  sorted : (received accesses).Pairwise (fun a b => a.1 < b.1)
  pushed : ∀ index line, (index, line) ∈ received accesses → (pushes accesses)[index]? = some line
  /-- A line that was passed and not received was evicted before the reader came to it. -/
  skipped : ∀ k < s.reader, k ∉ (received accesses).map Prod.fst →
    ∃ before reader after, accesses = before ++ .get reader .lost :: after ∧ reader ≤ k
      ∧ k + capacity.val < (pushes before).length
  announced_first : ∀ mid index line after, accesses = mid ++ .get index (.line line) :: after →
    received mid = [] → ((∃ reader, .get reader .lost ∈ mid) ↔ 0 < index)
  announced_between : ∀ before index line mid index' line' after,
    accesses = before ++ .get index (.line line) :: (mid ++ .get index' (.line line') :: after) →
    received mid = [] → ((∃ reader, .get reader .lost ∈ mid) ↔ index + 1 < index')
  announced_last : ∀ before index line mid, accesses = before ++ .get index (.line line) :: mid →
    received mid = [] → ((∃ reader, .get reader .lost ∈ mid) ↔ index + 1 < s.reader)
  announced_only : received accesses = [] →
    ((∃ reader, .get reader .lost ∈ accesses) ↔ 0 < s.reader)
  lost_skips : ∀ before reader after, accesses = before ++ .get reader .lost :: after →
    reader < (pushes before).length ∧ reader ∉ (received accesses).map Prod.fst
  empty_iff : ∀ before reader entry after, accesses = before ++ .get reader entry :: after →
    (entry = .empty ↔ reader = (pushes before).length)
  /-- A reader that is never more than a buffer behind receives everything. -/
  no_gap : (∀ before reader entry after, accesses = before ++ .get reader entry :: after →
      (pushes before).length ≤ reader + capacity.val) →
    (received accesses).map Prod.snd = (pushes accesses).take s.reader

/-- The position a line leaves the reader at. -/
theorem line_moves {pushed : List String} {s s' : Reading} {index : Nat} {line : String}
    (h : Mirrors pushed s) (hstep : ReadStep s (.get index (.line line)) s') :
    index = s.reader ∧ s'.reader = index + 1 := by
  cases hstep with
  | get hget =>
      cases get_found h hget with
      | line _ _ => exact ⟨rfl, rfl⟩

/-- Lines that are found in order and without a gap are the lines pushed. -/
theorem lines_of_indices {lines : List String} {found : List (Nat × String)} {n : Nat}
    (hindices : found.map Prod.fst = List.range' 0 n)
    (hfound : ∀ index line, (index, line) ∈ found → lines[index]? = some line) :
    found.map Prod.snd = lines.take n := by
  have hlen : found.length = n := by
    have := congrArg List.length hindices
    rwa [List.length_map, List.length_range'] at this
  refine List.ext_getElem? fun i => ?_
  rw [List.getElem?_map, List.getElem?_take]
  by_cases hi : i < n
  · have hget : i < found.length := hlen ▸ hi
    have hfst : found[i].1 = i := by
      have := congrArg (·[i]?) hindices
      simp only [List.getElem?_map, List.getElem?_eq_getElem hget, Option.map_some,
        List.getElem?_range' hi, Nat.zero_add, Nat.one_mul, Option.some.injEq] at this
      exact this
    have := hfound found[i].1 found[i].2 (List.getElem_mem hget)
    rw [hfst] at this
    rw [if_pos hi, this, List.getElem?_eq_getElem hget]
    rfl
  · rw [if_neg hi, List.getElem?_eq_none (by omega)]
    rfl

/-- **HEADLINE.** For every capacity and every interleaving of pushes with the
    reads of one reader: the buffer is the tail of the lines pushed, and the reader
    sees them in order, told of every gap and of no other. -/
theorem reader_follows {capacity : NonZeroUsize} {accesses : List Access} {s : Reading}
    (hrun : Run ReadStep (.new capacity) accesses s) : Follows capacity accesses s := by
  have hnew := mirrors_new capacity
  have hmirror := mirrors_run hnew hrun
  have hcapacity : s.logs.queue.capacity.val = capacity.val := congrArg _ (capacity_run hrun)
  constructor
  · show s.logs.queue.entries = _
    rw [hmirror.tail, hcapacity, List.nil_append]
    congr 1
    omega
  · exact hmirror.behind
  · exact received_sorted hnew hrun
  · exact fun index line => received_pushed hnew hrun
  · exact fun k hk hnot => skipped_evicted hnew hrun (Nat.zero_le k) hk hnot
  · rintro mid index line after rfl hnone
    obtain ⟨s₁, s₂, hmid, hm, hstep, -⟩ := access_state hnew hrun
    rw [(line_moves hm hstep).1]
    exact lost_iff_moved hnew hmid hnone
  · rintro before index line mid index' line' after rfl hnone
    obtain ⟨s₁, s₂, -, hm, hstep, hrest⟩ := access_state hnew hrun
    obtain ⟨s₃, s₄, hmid, hm', hstep', -⟩ := access_state (mirrors_step hm hstep) hrest
    rw [(line_moves hm' hstep').1, ← (line_moves hm hstep).2]
    exact lost_iff_moved (mirrors_step hm hstep) hmid hnone
  · rintro before index line mid rfl hnone
    obtain ⟨s₁, s₂, -, hm, hstep, hmid⟩ := access_state hnew hrun
    rw [← (line_moves hm hstep).2]
    exact lost_iff_moved (mirrors_step hm hstep) hmid hnone
  · exact lost_iff_moved hnew hrun
  · rintro before reader after rfl
    exact BeamLogReaders.lost_skips hnew hrun
  · rintro before reader entry after rfl
    exact BeamLogReaders.empty_iff hnew hrun
  · intro hnear
    have hindices := received_of_no_lost hnew hrun (no_lost hnew hrun hnear)
    exact lines_of_indices hindices fun index line => received_pushed hnew hrun

/-- Here a buffer for one line, of which the reader misses the first. -/
theorem reader_follows_lost :
    Follows ⟨1, by decide⟩
      [.push "a", .push "b", .get 0 .lost, .get 1 (.line "b"), .get 2 .empty]
      ⟨((Logs.new ⟨1, by decide⟩).push "a").push "b", 2⟩ :=
  reader_follows (.cons .push (.cons .push (.cons (.get rfl) (.cons (.get rfl) (.single (.get rfl))))))

end BeamLogReaders
