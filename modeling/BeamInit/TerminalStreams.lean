import BeamInit.Terminal

/-! # Attached streams — what is read and what is written

    A chunk that was read is in flight until `write_all` has written it.  The
    error of a write that would block ends the copy like that of a read, and what
    was in flight is dropped; as long as no write would block, nothing is lost. -/

namespace BeamTerminalStreams

open BeamOs BeamTerminal Runs

/-! ## Bytes in flight -/

/-- What has been read for an end and not been written to it. -/
def inFlight : Phase → Direction → List UInt8
  | .writing dir rest _ => Function.update (fun _ => []) dir rest
  | _ => fun _ => []

/-- Once a copy is over nothing is in flight. -/
theorem inFlight_after (result : Except CopyError Unit) (events : List Token) :
    inFlight (.after result events) = fun _ => [] := by
  rcases after_cases result events with ⟨answer, hafter⟩ | hafter
  · rw [hafter]
    rfl
  · rw [hafter]
    rfl

/-- What a step does to the streams. -/
inductive Flow (w w' : Attachment) : AttachmentMove → Prop where
  | same {l : AttachmentMove} : w'.read = w.read → w'.written = w.written →
      inFlight w'.phase = inFlight w.phase → Flow w w' l
  | read {dir : Direction} {chunk : List UInt8} : chunk ≠ [] →
      w'.read = Function.update w.read dir (w.read dir ++ chunk) → w'.written = w.written →
      (inFlight w.phase = fun _ => []) →
      inFlight w'.phase = Function.update (fun _ => []) dir chunk → Flow w w' (.read dir chunk)
  | wrote {dir : Direction} {rest : List UInt8} {n : Nat} :
      w'.read = w.read → w'.written = Function.update w.written dir (w.written dir ++ rest.take n) →
      inFlight w.phase = Function.update (fun _ => []) dir rest →
      inFlight w'.phase = Function.update (fun _ => []) dir (rest.drop n) → Flow w w' (.wrote n)
  | dropped {dir : Direction} {rest : List UInt8} {events : List Token} {err : CopyError} :
      w.phase = .writing dir rest events → w'.read = w.read → w'.written = w.written →
      w'.phase = .after (.error err) events → Flow w w' (.writeFailed err)

/-- Every step moves bytes along one of the two directions, or none. -/
theorem step_flow {w w' : Attachment} {l : AttachmentMove} (h : AttachmentStep w l w') :
    Flow w w' l := by
  cases h with
  | arrived | merged => exact .same rfl rfl rfl
  | synced hphase | syncFailed hphase | polled hphase | pollFailed hphase | handled hphase
  | copies hphase | took hphase | tookNothing hphase | forwarded hphase | forwardFailed hphase
  | resized hphase | detachFailed hphase =>
      refine .same rfl rfl ?_
      rw [hphase]
      rfl
  | endOfFile hphase | readFailed hphase | detached hphase =>
      refine .same rfl rfl ?_
      rw [inFlight_after, hphase]
      rfl
  | read hphase hne =>
      refine .read hne rfl rfl ?_ rfl
      rw [hphase]
      rfl
  | @wrote dir rest events n hphase hpos hle =>
      refine .wrote rfl rfl (by rw [hphase]; rfl) ?_
      by_cases hn : n = rest.length
      · show inFlight (if n = rest.length then _ else _) = _
        rw [if_pos hn, hn, List.drop_length, Function.update_eq_self_iff.mpr rfl]
        rfl
      · show inFlight (if n = rest.length then _ else _) = _
        rw [if_neg hn]
        rfl
  | writeFailed hphase => exact .dropped hphase rfl rfl rfl

/-! ## While no write blocks -/

/-- A write that would block, with bytes to go. -/
def isBlockedWrite : AttachmentMove → Bool
  | .writeFailed .wouldBlock => true
  | _ => false

/-- What was written is the beginning of what was read, and the rest is in flight. -/
structure Kept (w : Attachment) : Prop where
  begun : ∀ dir, w.written dir <+: w.read dir
  rest : w.Runs → ∀ dir, w.read dir = w.written dir ++ inFlight w.phase dir

/-- At first nothing has been read or written. -/
theorem kept_start : Kept .start where
  begun _ := List.prefix_refl _
  rest _ _ := rfl

/-- A step that does not block keeps what was read equal to what was written and what is in
    flight. -/
theorem kept_step {w w' : Attachment} {l : AttachmentMove} (hl : isBlockedWrite l = false)
    (h : Kept w) (hst : AttachmentStep w l w') : Kept w' := by
  have hrest := h.rest (runs_of_step hst)
  cases step_flow hst with
  | same hread hwritten hflight =>
      rw [← hread, ← hwritten, ← hflight] at hrest
      refine ⟨fun dir => ?_, fun _ => hrest⟩
      rw [hread, hwritten]
      exact h.begun dir
  | @read dir chunk hne hread hwritten hbefore hafter =>
      have hall : ∀ d, w'.read d = w'.written d ++ inFlight w'.phase d := by
        intro d
        have hd := hrest d
        rw [hbefore, List.append_nil] at hd
        rw [hread, hwritten, hafter]
        by_cases heq : d = dir
        · rw [heq, Function.update_self, Function.update_self, ← heq, hd]
        · rw [Function.update_of_ne heq, Function.update_of_ne heq, List.append_nil, hd]
      exact ⟨fun d => ⟨_, (hall d).symm⟩, fun _ => hall⟩
  | @wrote dir rest n hread hwritten hbefore hafter =>
      have hall : ∀ d, w'.read d = w'.written d ++ inFlight w'.phase d := by
        intro d
        have hd := hrest d
        rw [hbefore] at hd
        rw [hread, hwritten, hafter, hd]
        by_cases heq : d = dir
        · rw [heq, Function.update_self, Function.update_self, Function.update_self,
            List.append_assoc, List.take_append_drop]
        · rw [Function.update_of_ne heq, Function.update_of_ne heq, Function.update_of_ne heq]
      exact ⟨fun d => ⟨_, (hall d).symm⟩, fun _ => hall⟩
  | @dropped dir rest events err hphase hread hwritten hafter =>
      refine ⟨fun d => ?_, fun hruns => ?_⟩
      · rw [hread, hwritten]
        exact h.begun d
      · cases err with
        | wouldBlock => exact absurd hl.symm Bool.false_ne_true
        | eio => exact absurd hafter (hruns _)
        | other err => exact absurd hafter (hruns _)

/-! ## Once a write has blocked -/

/-- Bytes of this direction are neither written nor in flight. -/
def Behind (dir : Direction) (w : Attachment) : Prop :=
  (w.written dir).length + (inFlight w.phase dir).length < (w.read dir).length

/-- Never more is written or in flight than was read, and no empty chunk is. -/
structure Bounded (w : Attachment) : Prop where
  le : ∀ dir, (w.written dir).length + (inFlight w.phase dir).length ≤ (w.read dir).length
  chunk : ∀ dir rest events, w.phase = .writing dir rest events → rest ≠ []

/-- The bytes that are neither written nor in flight grow in number only. -/
theorem missing_mono {w w' : Attachment} {l : AttachmentMove} (hst : AttachmentStep w l w')
    (dir : Direction) :
    (w'.written dir).length + (inFlight w'.phase dir).length + (w.read dir).length
      ≤ (w.written dir).length + (inFlight w.phase dir).length + (w'.read dir).length := by
  cases step_flow hst with
  | same hread hwritten hflight => rw [hread, hwritten, hflight]
  | @read dir' chunk hne hread hwritten hbefore hafter =>
      rw [hread, hwritten, hbefore, hafter]
      by_cases heq : dir = dir'
      · rw [heq, Function.update_self, Function.update_self, List.length_append, List.length_nil]
        omega
      · rw [Function.update_of_ne heq, Function.update_of_ne heq]
  | @wrote dir' rest n hread hwritten hbefore hafter =>
      rw [hread, hwritten, hbefore, hafter]
      by_cases heq : dir = dir'
      · rw [heq, Function.update_self, Function.update_self, Function.update_self,
          List.length_append, List.length_take, List.length_drop]
        omega
      · rw [Function.update_of_ne heq, Function.update_of_ne heq, Function.update_of_ne heq]
  | @dropped dir' rest events err hphase hread hwritten hafter =>
      rw [hread, hwritten, hafter, inFlight_after, List.length_nil]
      omega

/-- A direction that is behind stays behind. -/
theorem behind_step {dir : Direction} {w w' : Attachment} {l : AttachmentMove} (h : Behind dir w)
    (hst : AttachmentStep w l w') : Behind dir w' := by
  have := missing_mono hst dir
  rw [Behind] at h ⊢
  omega

/-- At first nothing has been read or is in flight. -/
theorem bounded_start : Bounded .start where
  le _ := Nat.le_refl 0
  chunk _ _ _ h := nomatch h

/-- A copy that has ended is not one that still writes. -/
theorem after_ne_writing (result : Except CopyError Unit) (events events' : List Token)
    (dir : Direction) (rest : List UInt8) : Phase.after result events ≠ .writing dir rest events' := by
  rcases after_cases result events with ⟨answer, hafter⟩ | hafter
  · rw [hafter]
    exact Phase.noConfusion
  · rw [hafter]
    exact Phase.noConfusion

/-- No step writes what was not read. -/
theorem bounded_step {w w' : Attachment} {l : AttachmentMove} (h : Bounded w)
    (hst : AttachmentStep w l w') : Bounded w' := by
  refine ⟨fun dir => ?_, fun dir rest events hphase' => ?_⟩
  · have := missing_mono hst dir
    have := h.le dir
    omega
  · cases hst with
    | arrived | merged => exact h.chunk _ _ _ hphase'
    | read hphase hne =>
        cases hphase'
        exact hne
    | @wrote dir' rest' events' n hphase hpos hle =>
        change (if n = rest'.length then Phase.reading dir' events'
          else .writing dir' (rest'.drop n) events') = _ at hphase'
        by_cases hn : n = rest'.length
        · rw [if_pos hn] at hphase'
          cases hphase'
        · rw [if_neg hn] at hphase'
          cases hphase'
          intro hnil
          exact hn (Nat.le_antisymm hle (List.drop_eq_nil_iff.mp hnil))
    | readFailed | writeFailed => exact absurd hphase' (after_ne_writing _ _ _ _ _)
    | synced | syncFailed | polled | pollFailed | handled | copies | endOfFile | took | tookNothing
    | forwarded | forwardFailed | resized | detached | detachFailed => cases hphase'

/-- A write that would block gives up the bytes it had in flight. -/
theorem behind_of_blocked {w w' : Attachment} {l : AttachmentMove} (h : Bounded w)
    (hl : isBlockedWrite l = true) (hst : AttachmentStep w l w') : ∃ dir, Behind dir w' := by
  cases hst with
  | @writeFailed dir rest events err hphase =>
      refine ⟨dir, ?_⟩
      have hle := h.le dir
      have hpos := List.length_pos_of_ne_nil (h.chunk _ _ _ hphase)
      rw [hphase] at hle
      change (w.written dir).length + (Function.update (fun _ => []) dir rest dir).length ≤ _ at hle
      rw [Function.update_self] at hle
      show (w.written dir).length + (inFlight (.after (.error err) events) dir).length
        < (w.read dir).length
      rw [inFlight_after, List.length_nil]
      omega
  | _ => exact absurd hl Bool.false_ne_true

/-! ## The streams of an attached terminal -/

/-- **NOTHING IS LOST WHILE NO WRITE BLOCKS**: then what was written is the beginning of
    what was read at every moment, and all of it whenever the loop is in `poll`; and
    from the first write that blocks on, it is not all of it in `poll` again. -/
theorem written_eq_read_iff {ls : List AttachmentMove} {w : Attachment}
    (hrun : Run AttachmentStep .start ls w) :
    ((∀ l ∈ ls, isBlockedWrite l = false) → ∀ dir, w.written dir <+: w.read dir)
      ∧ (w.phase = .polling →
        ((∀ dir, w.written dir = w.read dir) ↔ ∀ l ∈ ls, isBlockedWrite l = false)) := by
  have hkept : (∀ l ∈ ls, isBlockedWrite l = false) → Kept w :=
    fun hall => hrun.invariant_of kept_step hall kept_start
  refine ⟨fun hall => (hkept hall).begun, fun hphase => ⟨fun heq l hl => ?_, fun hall dir => ?_⟩⟩
  · -- A blocked write leaves a direction behind for good.
    rw [← Bool.not_eq_true]
    intro hblocked
    obtain ⟨pre, post, w₁, w₂, -, hpre, hst, hpost⟩ := hrun.step_of_mem hl
    obtain ⟨dir, hbehind⟩ := behind_of_blocked (hpre.invariant bounded_step bounded_start) hblocked hst
    have hend : Behind dir w := hpost.invariant behind_step hbehind
    rw [Behind, heq dir] at hend
    omega
  · have hrest := (hkept hall).rest (runs_of_polling hphase) dir
    rw [hphase] at hrest
    rw [hrest]
    exact (List.append_nil _).symm

/-- Bytes of the controller are an event by themselves. -/
theorem polls_controller {w : Attachment} (h : w.edge = false) :
    w.Polls [.canReadFromController] where
  some := List.cons_ne_nil _ _
  once := List.nodup_singleton _
  signal := iff_of_false (by decide) fun hboth => Bool.false_ne_true (h.symm.trans hboth.1)

/-- Two bytes are typed; the PTY takes one at a time. -/
theorem written_eq_read_iff_typed :
    ∃ ls w, Run AttachmentStep .start ls w ∧ w.phase = .polling ∧ w.read .input = [104, 105]
      ∧ ∀ dir, w.written dir = w.read dir := by
  have hrun : ∃ w, Run AttachmentStep .start [.synced, .polled [.canReadFromController],
      .copies .canReadFromController, .read .input [104, 105], .wrote 1, .wrote 1,
      .readFailed .wouldBlock, .handled, .synced] w ∧ w.phase = .polling
      ∧ w.read .input = [104, 105] :=
    ⟨_, .cons (.synced rfl) (.cons (.polled rfl (polls_controller rfl)) (.cons (.copies rfl rfl)
      (.cons (.read rfl (List.cons_ne_nil _ _)) (.cons (.wrote rfl (by decide) (by decide))
      (.cons (.wrote rfl (by decide) (by decide)) (.cons (.readFailed rfl) (.cons (.handled rfl)
      (.single (.synced rfl))))))))), rfl, rfl⟩
  obtain ⟨w, hrun, hphase, hread⟩ := hrun
  exact ⟨_, w, hrun, hphase, hread,
    ((written_eq_read_iff hrun).2 hphase).mpr (by decide)⟩

/-- The PTY takes one of two bytes and then would block: the other is gone. -/
theorem blocked_write_drops_byte :
    (∃ ls w, Run AttachmentStep .start ls w ∧ w.phase = .polling ∧ w.read .input = [104, 105]
        ∧ w.written .input = [104])
      ∧ ¬∀ ls w, Run AttachmentStep .start ls w → w.phase = .polling →
          ∀ dir, w.written dir = w.read dir := by
  have hrun : ∃ w, Run AttachmentStep .start [.synced, .polled [.canReadFromController],
      .copies .canReadFromController, .read .input [104, 105], .wrote 1, .writeFailed .wouldBlock,
      .handled, .synced] w ∧ w.phase = .polling ∧ w.read .input = [104, 105]
      ∧ w.written .input = [104] :=
    ⟨_, .cons (.synced rfl) (.cons (.polled rfl (polls_controller rfl)) (.cons (.copies rfl rfl)
      (.cons (.read rfl (List.cons_ne_nil _ _)) (.cons (.wrote rfl (by decide) (by decide))
      (.cons (.writeFailed rfl) (.cons (.handled rfl) (.single (.synced rfl)))))))), rfl, rfl, rfl⟩
  obtain ⟨w, hrun, hphase, hread, hwritten⟩ := hrun
  refine ⟨⟨_, w, hrun, hphase, hread, hwritten⟩, fun hall => ?_⟩
  have heq := hall _ w hrun hphase .input
  rw [hread, hwritten] at heq
  exact absurd heq (by decide)

end BeamTerminalStreams
