import BeamInit.Consistency
import BeamInit.Routes

/-! # The PTY socket — one connection from both ends

    A client sends the name of a service with a length byte before it, and gets the
    PTY's descriptor back on a byte of its own, or the end of the stream.  Either
    side may read and write in any pieces.  The connection task is taken here one
    system call at a time, against a peer that writes what it likes and closes when
    it likes; then against `get_pty_from_store`. -/

namespace BeamPtyStore

open BeamApi BeamOs BeamService BeamManager BeamMainLoop BeamConsistency BeamRoutes Runs

/-! ## The connection task -/

/-- Where `handle_connection` is. -/
inductive TaskAt where
  /-- In `read_u8`. -/
  | readLen
  /-- In `read_exact`, with this much of the name. -/
  | readName (nameLen : UInt8) (name : List UInt8)
  /-- In `tx_event.send`. -/
  | sending (name : String)
  /-- In `res_rx.await`. -/
  | waiting (name : String)
  /-- In `socket_send_fd`. -/
  | replying (fd : Pty)
  /-- It has returned, which closes its end of the stream. -/
  | returned
deriving DecidableEq

structure Connection where
  /-- All the peer has written, and what of it the task has yet to read. -/
  written : List UInt8
  unread : List UInt8
  peerClosed : Bool
  task : TaskAt
  /-- The events the task has put on the channel. -/
  sent : List Event
  /-- The descriptor on its way to the peer, with its one byte. -/
  reply : Option Pty

def Connection.start : Connection where
  written := []
  unread := []
  peerClosed := false
  task := .readLen
  sent := []
  reply := none

inductive Move where
  /-- The peer writes some bytes. -/
  | write (bytes : List UInt8)
  | close
  /-- The task reads, and is given at most one byte more than this. -/
  | read (count : Nat)
  | send
  /-- The main loop handles the event of the task. -/
  | answer (os : Os) (m : Machine)
  | reply (ok : Bool)

/-- `read_exact` has this much of the name: it goes on, or the name is whole and
    must be UTF-8. -/
def afterRead (nameLen : UInt8) (name : List UInt8) : TaskAt :=
  if name.length < nameLen.toNat then .readName nameLen name
  else
    match String.fromUTF8? ⟨name.toArray⟩ with
    | some name => .sending name
    | none => .returned

/-- A read at the end of the stream fails, and the task returns. -/
def Connection.readEnd (w : Connection) : Option Connection :=
  if w.peerClosed then some { w with task := .returned } else none

def Connection.read (w : Connection) (count : Nat) : Option Connection :=
  match w.task, w.unread with
  | .readLen, [] => w.readEnd
  | .readLen, nameLen :: rest => some { w with unread := rest, task := afterRead nameLen [] }
  | .readName _ _, [] => w.readEnd
  | .readName nameLen name, next :: rest =>
      let given := min (count + 1) (nameLen.toNat - name.length)
      some { w with
        unread := (next :: rest).drop given
        task := afterRead nameLen (name ++ (next :: rest).take given) }
  | _, _ => none

section Steps

variable (credentials : Credentials)

/-- One move; `none` where it cannot be taken. -/
def connStep (w : Connection) : Move → Option Connection
  | .write bytes =>
      if w.peerClosed ∨ w.task = .returned then none
      else some { w with written := w.written ++ bytes, unread := w.unread ++ bytes }
  | .close => if w.peerClosed then none else some { w with peerClosed := true }
  | .read count => w.read count
  | .send =>
      match w.task with
      | .sending name =>
          some { w with task := .waiting name, sent := w.sent ++ [.getPty name credentials] }
      | _ => none
  | .answer os m =>
      match w.task with
      | .waiting name =>
          match handleEvent os m (.getPty name credentials) with
          | .ok (.pty (.ok fd), _) => some { w with task := .replying fd }
          -- the reply channel is dropped
          | .ok _ => some { w with task := .returned }
          | .error _ => none
      | _ => none
  | .reply ok =>
      match w.task with
      | .replying fd =>
          some { w with
            task := .returned
            reply := if ok ∧ ¬w.peerClosed then some fd else none }
      | _ => none

def ConnStep (w : Connection) (move : Move) (w' : Connection) : Prop :=
  connStep credentials w move = some w'

end Steps

/-! ## What is heard -/

section Heard

variable {credentials : Credentials}

/-- `handle_connection` needs no more than the name and its length. -/
theorem handleConnection_append {input : List UInt8} {event : Event} (more : List UInt8)
    (h : handleConnection credentials input = some event) :
    handleConnection credentials (input ++ more) = some event := by
  cases input with
  | nil => exact nomatch h
  | cons nameLen rest =>
      rw [handleConnection] at h
      by_cases hlen : rest.length < nameLen.toNat
      · rw [if_pos hlen] at h
        exact nomatch h
      · rw [if_neg hlen] at h
        rw [List.cons_append, handleConnection, if_neg, List.take_append_of_le_length]
        · exact h
        · omega
        · rw [List.length_append]
          omega

/-- A name that is whole is the one in the event. -/
theorem handleConnection_whole (nameLen : UInt8) {name : List UInt8} (more : List UInt8)
    (hlen : name.length = nameLen.toNat) :
    handleConnection credentials (nameLen :: (name ++ more))
      = (String.fromUTF8? ⟨name.toArray⟩).map fun name => .getPty name credentials := by
  rw [handleConnection, if_neg, List.take_left' hlen]
  · cases String.fromUTF8? ⟨name.toArray⟩ <;> rfl
  · rw [List.length_append]
    omega

/-- A name that is not whole is no event. -/
theorem handleConnection_part {nameLen : UInt8} {name : List UInt8}
    (hlen : name.length < nameLen.toNat) :
    handleConnection credentials (nameLen :: name) = none := by
  rw [handleConnection, if_pos hlen]

/-- **The invariant**: how far the task is says what it has read and sent. -/
def Heard (credentials : Credentials) (w : Connection) : Prop :=
  match w.task with
  | .readLen => w.written = w.unread ∧ w.sent = []
  | .readName nameLen name =>
      w.written = nameLen :: (name ++ w.unread) ∧ name.length < nameLen.toNat ∧ w.sent = []
  | .sending name =>
      handleConnection credentials w.written = some (.getPty name credentials) ∧ w.sent = []
  | .waiting name =>
      handleConnection credentials w.written = some (.getPty name credentials)
        ∧ w.sent = [.getPty name credentials]
  | .replying _ => ∃ name, handleConnection credentials w.written = some (.getPty name credentials)
        ∧ w.sent = [.getPty name credentials]
  | .returned => w.sent = (handleConnection credentials w.written).toList

/-- What a move does. -/
inductive Moved (credentials : Credentials) (w : Connection) : Move → Connection → Prop where
  | wrote {bytes : List UInt8} : w.peerClosed = false → w.task ≠ .returned →
      Moved credentials w (.write bytes)
        { w with written := w.written ++ bytes, unread := w.unread ++ bytes }
  | closed : w.peerClosed = false → Moved credentials w .close { w with peerClosed := true }
  | ended {count : Nat} : w.task = .readLen ∨ (∃ nameLen name, w.task = .readName nameLen name) →
      w.unread = [] → w.peerClosed = true →
      Moved credentials w (.read count) { w with task := .returned }
  | readLen {count : Nat} {nameLen : UInt8} {rest : List UInt8} :
      w.task = .readLen → w.unread = nameLen :: rest →
      Moved credentials w (.read count) { w with unread := rest, task := afterRead nameLen [] }
  | readName {count : Nat} {nameLen : UInt8} {name taken rest : List UInt8} :
      w.task = .readName nameLen name → w.unread = taken ++ rest → taken ≠ [] →
      taken.length ≤ nameLen.toNat - name.length →
      Moved credentials w (.read count)
        { w with unread := rest, task := afterRead nameLen (name ++ taken) }
  | sent {name : String} : w.task = .sending name →
      Moved credentials w .send
        { w with task := .waiting name, sent := w.sent ++ [.getPty name credentials] }
  | granted {os : Os} {m m' : Machine} {name : String} {fd : Pty} : w.task = .waiting name →
      handleEvent os m (.getPty name credentials) = .ok (.pty (.ok fd), m') →
      Moved credentials w (.answer os m) { w with task := .replying fd }
  | refused {os : Os} {m m' : Machine} {name : String} {reply : Reply} : w.task = .waiting name →
      handleEvent os m (.getPty name credentials) = .ok (reply, m') →
      (∀ fd, reply ≠ .pty (.ok fd)) →
      Moved credentials w (.answer os m) { w with task := .returned }
  | replied {ok : Bool} {fd : Pty} {reply : Option Pty} : w.task = .replying fd →
      (reply = some fd ∨ (reply = none ∧ (ok = false ∨ w.peerClosed = true))) →
      Moved credentials w (.reply ok) { w with task := .returned, reply }

theorem read_moved {w w' : Connection} {count : Nat} (h : w.read count = some w')
    (hname : ∀ nameLen name, w.task = .readName nameLen name → name.length < nameLen.toNat) :
    Moved credentials w (.read count) w' := by
  have hend : w.readEnd = some w' → w.unread = [] →
      w.task = .readLen ∨ (∃ nameLen name, w.task = .readName nameLen name) →
      Moved credentials w (.read count) w' := by
    intro hend hunread htask
    rw [Connection.readEnd] at hend
    by_cases hclosed : w.peerClosed = true
    · rw [if_pos hclosed] at hend
      cases hend
      exact .ended htask hunread hclosed
    · rw [if_neg hclosed] at hend
      exact nomatch hend
  unfold Connection.read at h
  cases htask : w.task with
  | readLen =>
      rw [htask] at h
      cases hunread : w.unread with
      | nil =>
          rw [hunread] at h
          exact hend h hunread (.inl htask)
      | cons nameLen rest =>
          rw [hunread] at h
          cases h
          exact .readLen htask hunread
  | readName nameLen name =>
      rw [htask] at h
      have hlt := hname nameLen name htask
      cases hunread : w.unread with
      | nil =>
          rw [hunread] at h
          exact hend h hunread (.inr ⟨_, _, htask⟩)
      | cons next rest =>
          rw [hunread] at h
          cases h
          refine .readName htask ?_ (fun hnil => ?_) ?_
          · rw [hunread]
            exact (List.take_append_drop _ _).symm
          · rcases List.take_eq_nil_iff.mp hnil with hzero | hcons
            · omega
            · exact nomatch hcons
          · rw [List.length_take]
            omega
  | sending _ | waiting _ | replying _ | returned =>
      rw [htask] at h
      exact nomatch h

theorem connStep_moved {w w' : Connection} {move : Move} (h : ConnStep credentials w move w')
    (hname : ∀ nameLen name, w.task = .readName nameLen name → name.length < nameLen.toNat) :
    Moved credentials w move w' := by
  cases move with
  | write bytes =>
      by_cases hgone : w.peerClosed = true ∨ w.task = .returned
      · exact nomatch (if_pos hgone).symm.trans h
      · cases (if_neg hgone).symm.trans h
        rw [not_or] at hgone
        exact .wrote (Bool.eq_false_iff.mpr hgone.1) hgone.2
  | close =>
      by_cases hgone : w.peerClosed = true
      · exact nomatch (if_pos hgone).symm.trans h
      · cases (if_neg hgone).symm.trans h
        exact .closed (Bool.eq_false_iff.mpr hgone)
  | read count => exact read_moved h hname
  | send =>
      unfold ConnStep connStep at h
      cases htask : w.task with
      | sending name =>
          rw [htask] at h
          cases h
          exact .sent htask
      | readLen | readName _ _ | waiting _ | replying _ | returned =>
          rw [htask] at h
          exact nomatch h
  | answer os m =>
      unfold ConnStep connStep at h
      cases htask : w.task with
      | waiting name =>
          rw [htask] at h
          dsimp only at h
          split at h
          · rename_i fd m' hreply
            cases h
            exact .granted htask hreply
          · rename_i outcome hother hreply
            cases h
            exact .refused htask hreply fun fd hfd => hother fd outcome.2 (by rw [← hfd])
          · exact nomatch h
      | readLen | readName _ _ | sending _ | replying _ | returned =>
          rw [htask] at h
          exact nomatch h
  | reply ok =>
      unfold ConnStep connStep at h
      cases htask : w.task with
      | replying fd =>
          rw [htask] at h
          cases h
          refine .replied htask ?_
          by_cases hok : ok = true ∧ ¬w.peerClosed = true
          · exact .inl (if_pos hok)
          · refine .inr ⟨if_neg hok, ?_⟩
            grind
      | readLen | readName _ _ | sending _ | waiting _ | returned =>
          rw [htask] at h
          exact nomatch h

theorem Heard.name_short {w : Connection} (h : Heard credentials w) (nameLen : UInt8)
    (name : List UInt8) (htask : w.task = .readName nameLen name) :
    name.length < nameLen.toNat := by
  rw [Heard] at h
  rw [htask] at h
  exact h.2.1

/-- A task that has read this much of the name, and no more. -/
theorem heard_afterRead {w : Connection} {nameLen : UInt8} {name rest : List UInt8}
    (hwritten : w.written = nameLen :: (name ++ rest)) (hlen : name.length ≤ nameLen.toNat)
    (hsent : w.sent = []) :
    Heard credentials { w with unread := rest, task := afterRead nameLen name } := by
  rw [afterRead]
  by_cases hmore : name.length < nameLen.toNat
  · rw [if_pos hmore]
    exact ⟨hwritten, hmore, hsent⟩
  · rw [if_neg hmore]
    have hwhole : handleConnection credentials (nameLen :: (name ++ rest)) = _ :=
      handleConnection_whole nameLen rest (Nat.le_antisymm hlen (Nat.not_lt.mp hmore))
    cases hname : String.fromUTF8? ⟨name.toArray⟩ with
    | some name =>
        rw [hname, ← hwritten] at hwhole
        exact ⟨hwhole, hsent⟩
    | none =>
        rw [hname, ← hwritten] at hwhole
        show w.sent = (handleConnection credentials w.written).toList
        rw [hwhole, hsent]
        rfl

/-- More bytes change nothing about what has been heard. -/
theorem heard_write {w : Connection} (bytes : List UInt8) (h : Heard credentials w)
    (hrunning : w.task ≠ .returned) :
    Heard credentials
      { w with written := w.written ++ bytes, unread := w.unread ++ bytes } := by
  rw [Heard] at h ⊢
  dsimp only
  cases htask : w.task with
  | readLen =>
      rw [htask] at h
      exact ⟨congrArg (· ++ bytes) h.1, h.2⟩
  | readName nameLen name =>
      rw [htask] at h
      refine ⟨?_, h.2⟩
      rw [h.1, List.cons_append, List.append_assoc]
  | sending name =>
      rw [htask] at h
      exact ⟨handleConnection_append bytes h.1, h.2⟩
  | waiting name =>
      rw [htask] at h
      exact ⟨handleConnection_append bytes h.1, h.2⟩
  | replying fd =>
      rw [htask] at h
      obtain ⟨name, hevent, hsent⟩ := h
      exact ⟨name, handleConnection_append bytes hevent, hsent⟩
  | returned => exact absurd htask hrunning

theorem heard_step {w w' : Connection} {move : Move} (h : Heard credentials w)
    (hstep : ConnStep credentials w move w') : Heard credentials w' := by
  have hheard := h
  rw [Heard] at h
  cases connStep_moved hstep hheard.name_short with
  | wrote _ hrunning => exact heard_write _ hheard hrunning
  | closed _ => exact hheard
  | ended htask hunread _ =>
      -- the stream ended before the name was whole
      show w.sent = (handleConnection credentials w.written).toList
      rcases htask with htask | ⟨nameLen, name, htask⟩
      · rw [htask] at h
        rw [h.1, h.2, hunread]
        rfl
      · rw [htask] at h
        rw [h.1, hunread, List.append_nil, handleConnection_part h.2.1]
        exact h.2.2
  | readLen htask hunread =>
      rw [htask] at h
      exact heard_afterRead (h.1.trans hunread) (Nat.zero_le _) h.2
  | readName htask hunread _ hlen =>
      rw [htask] at h
      refine heard_afterRead ?_ ?_ h.2.2
      · rw [h.1, hunread, List.append_assoc]
      · rw [List.length_append]
        omega
  | sent htask =>
      rw [htask] at h
      refine ⟨h.1, ?_⟩
      rw [h.2, List.nil_append]
  | granted htask _ =>
      rw [htask] at h
      exact ⟨_, h⟩
  | refused htask _ _ =>
      rw [htask] at h
      show w.sent = (handleConnection credentials w.written).toList
      rw [h.1, h.2]
      rfl
  | replied htask _ =>
      rw [htask] at h
      obtain ⟨name, hevent, hsent⟩ := h
      show w.sent = (handleConnection credentials w.written).toList
      rw [hevent, hsent]
      rfl

/-- The task has sent nothing, or the event its peer's bytes stand for. -/
theorem Heard.sent_cases {w : Connection} (h : Heard credentials w) :
    w.sent = [] ∨ ∃ event, w.sent = [event]
      ∧ handleConnection credentials w.written = some event := by
  rw [Heard] at h
  cases htask : w.task with
  | readLen =>
      rw [htask] at h
      exact .inl h.2
  | readName _ _ =>
      rw [htask] at h
      exact .inl h.2.2
  | sending _ =>
      rw [htask] at h
      exact .inl h.2
  | waiting _ =>
      rw [htask] at h
      exact .inr ⟨_, h.2, h.1⟩
  | replying _ =>
      rw [htask] at h
      obtain ⟨name, hevent, hsent⟩ := h
      exact .inr ⟨_, hsent, hevent⟩
  | returned =>
      rw [htask] at h
      cases hevent : handleConnection credentials w.written with
      | none => exact .inl (h.trans (by rw [hevent]; rfl))
      | some event => exact .inr ⟨event, h.trans (by rw [hevent]; rfl), rfl⟩

theorem heard_start : Heard credentials .start := ⟨rfl, rfl⟩

/-! ## What is answered -/

/-- The main loop gave this descriptor for the event of that name. -/
def Granted (credentials : Credentials) (moves : List Move) (name : String) (fd : Pty) : Prop :=
  ∃ os m m', .answer os m ∈ moves
    ∧ handleEvent os m (.getPty name credentials) = .ok (.pty (.ok fd), m')

/-- The main loop dropped the reply channel of the event of that name. -/
def Refused (credentials : Credentials) (moves : List Move) (name : String) : Prop :=
  ∃ os m m' reply, .answer os m ∈ moves
    ∧ handleEvent os m (.getPty name credentials) = .ok (reply, m')
    ∧ ∀ fd, reply ≠ .pty (.ok fd)

/-- A descriptor that is sent is the main loop's answer, and none is sent only if the
    main loop had none, the call failed or the peer had closed. -/
structure Answered (credentials : Credentials) (moves : List Move) (w : Connection) : Prop where
  heard : Heard credentials w
  fd : ∀ fd, w.task = .replying fd ∨ w.reply = some fd → ∃ name,
    w.sent = [.getPty name credentials] ∧ Granted credentials moves name fd
  unanswered : w.task ≠ .returned → w.reply = none
  refused : w.task = .returned → w.reply = none → ∀ name, w.sent = [.getPty name credentials] →
    Refused credentials moves name ∨ .reply false ∈ moves ∨ w.peerClosed = true

theorem Granted.more {moves : List Move} {name : String} {fd : Pty} (move : Move)
    (h : Granted credentials moves name fd) : Granted credentials (moves ++ [move]) name fd := by
  obtain ⟨os, m, m', hmem, hreply⟩ := h
  exact ⟨os, m, m', List.mem_append_left _ hmem, hreply⟩

theorem Refused.more {moves : List Move} {name : String} (move : Move)
    (h : Refused credentials moves name) : Refused credentials (moves ++ [move]) name := by
  obtain ⟨os, m, m', reply, hmem, hreply⟩ := h
  exact ⟨os, m, m', reply, List.mem_append_left _ hmem, hreply⟩

theorem answered_start : Answered credentials [] .start :=
  ⟨heard_start, nofun, fun _ => rfl, nofun⟩

/-- A move that leaves the reply alone, and the task short of its reply. -/
theorem Answered.of_same {w w' : Connection} {moves : List Move} {move : Move}
    (h : Answered credentials moves w) (hheard : Heard credentials w')
    (hreply : w'.reply = w.reply) (hclosed : w.peerClosed = true → w'.peerClosed = true)
    (htask : (w'.task = w.task ∧ w'.sent = w.sent) ∨ (w.task ≠ .returned ∧ w'.task ≠ .returned
      ∧ ∀ fd, w'.task ≠ .replying fd)) : Answered credentials (moves ++ [move]) w' := by
  rcases htask with ⟨htask, hsent⟩ | ⟨hbefore, hafter, hreplying⟩
  · refine ⟨hheard, fun fd hfd => ?_, fun hne => ?_, fun hret hnone name hname => ?_⟩
    · rw [htask, hreply] at hfd
      obtain ⟨name, hname, hgranted⟩ := h.fd fd hfd
      exact ⟨name, hsent.trans hname, hgranted.more move⟩
    · rw [hreply]
      exact h.unanswered (htask ▸ hne)
    · rcases h.refused (htask ▸ hret) (hreply ▸ hnone) name (hsent ▸ hname) with hr | hr | hr
      · exact .inl (hr.more move)
      · exact .inr (.inl (List.mem_append_left _ hr))
      · exact .inr (.inr (hclosed hr))
  · have hnone : w'.reply = none := hreply.trans (h.unanswered hbefore)
    refine ⟨hheard, fun fd hfd => ?_, fun _ => hnone, fun hret => absurd hret hafter⟩
    rcases hfd with hfd | hfd
    · exact absurd hfd (hreplying fd)
    · exact nomatch hnone.symm.trans hfd

theorem afterRead_cases (nameLen : UInt8) (name : List UInt8) :
    afterRead nameLen name = .readName nameLen name ∨ (∃ s, afterRead nameLen name = .sending s)
      ∨ afterRead nameLen name = .returned := by
  rw [afterRead]
  by_cases hmore : name.length < nameLen.toNat
  · exact .inl (if_pos hmore)
  · rw [if_neg hmore]
    cases String.fromUTF8? ⟨name.toArray⟩ with
    | some s => exact .inr (.inl ⟨s, rfl⟩)
    | none => exact .inr (.inr rfl)

/-- A task that returns without having sent its event. -/
theorem Answered.of_unsent {w w' : Connection} {moves : List Move} {move : Move}
    (h : Answered credentials moves w) (hheard : Heard credentials w')
    (hreply : w'.reply = w.reply) (htask : w.task ≠ .returned) (htask' : ∀ fd, w'.task ≠ .replying fd)
    (hsent : w'.sent = []) : Answered credentials (moves ++ [move]) w' := by
  have hnone : w'.reply = none := hreply.trans (h.unanswered htask)
  refine ⟨hheard, fun fd hfd => ?_, fun _ => hnone, fun _ _ name hname => ?_⟩
  · rcases hfd with hfd | hfd
    · exact absurd hfd (htask' fd)
    · exact nomatch hnone.symm.trans hfd
  · exact nomatch hsent.symm.trans hname

theorem answered_step {w w' : Connection} {moves : List Move} {move : Move}
    (h : Answered credentials moves w) (hstep : ConnStep credentials w move w') :
    Answered credentials (moves ++ [move]) w' := by
  have hheard' := heard_step h.heard hstep
  have hheard := h.heard
  rw [Heard] at hheard
  have hreads : ∀ nameLen name fd, afterRead nameLen name ≠ .replying fd := by
    intro nameLen name fd heq
    rcases afterRead_cases nameLen name with hr | ⟨s, hr⟩ | hr <;> exact nomatch hr.symm.trans heq
  cases connStep_moved hstep h.heard.name_short with
  | wrote _ _ => exact h.of_same hheard' rfl id (.inl ⟨rfl, rfl⟩)
  | closed _ => exact h.of_same hheard' rfl (fun _ => rfl) (.inl ⟨rfl, rfl⟩)
  | ended htask _ _ =>
      rcases htask with htask | ⟨nameLen, name, htask⟩
      · rw [htask] at hheard
        exact h.of_unsent hheard' rfl (htask ▸ nofun) nofun hheard.2
      · rw [htask] at hheard
        exact h.of_unsent hheard' rfl (htask ▸ nofun) nofun hheard.2.2
  | readLen htask _ =>
      rw [htask] at hheard
      exact h.of_unsent hheard' rfl (htask ▸ nofun) (hreads _ _) hheard.2
  | readName htask _ _ _ =>
      rw [htask] at hheard
      exact h.of_unsent hheard' rfl (htask ▸ nofun) (hreads _ _) hheard.2.2
  | sent htask => exact h.of_same hheard' rfl id (.inr ⟨htask ▸ nofun, nofun, nofun⟩)
  | @granted os m m' name fd htask hreply =>
      rw [htask] at hheard
      have hnone : w.reply = none := h.unanswered (htask ▸ nofun)
      refine ⟨hheard', fun fd' hfd => ?_, fun _ => hnone, nofun⟩
      rcases hfd with hfd | hfd
      · cases hfd
        exact ⟨name, hheard.2, os, m, m', List.mem_append_right _ List.mem_cons_self, hreply⟩
      · exact nomatch hnone.symm.trans hfd
  | @refused os m m' name reply htask hreply hnofd =>
      rw [htask] at hheard
      have hnone : w.reply = none := h.unanswered (htask ▸ nofun)
      refine ⟨hheard', fun fd' hfd => ?_, fun _ => hnone, fun _ _ name' hname => .inl ?_⟩
      · rcases hfd with hfd | hfd
        · exact nomatch hfd
        · exact nomatch hnone.symm.trans hfd
      · have hname' : name' = name := by
          have hsent := hheard.2.symm.trans hname
          cases hsent
          rfl
        rw [hname']
        exact ⟨os, m, m', reply, List.mem_append_right _ List.mem_cons_self, hreply, hnofd⟩
  | @replied ok fd reply htask hreply =>
      refine ⟨hheard', fun fd' hfd => ?_, fun hne => absurd rfl hne, fun _ hnone name hname => ?_⟩
      · rcases hfd with hfd | hfd
        · exact nomatch hfd
        · rcases hreply with hreply | ⟨hreply, -⟩
          · cases hreply.symm.trans hfd
            obtain ⟨name, hname, hgranted⟩ := h.fd fd (.inl htask)
            exact ⟨name, hname, hgranted.more _⟩
          · exact nomatch hreply.symm.trans hfd
      · rcases hreply with hreply | ⟨-, hfail | hclosed⟩
        · exact nomatch hreply.symm.trans hnone
        · rw [hfail]
          exact .inr (.inl (List.mem_append_right _ List.mem_cons_self))
        · exact .inr (.inr hclosed)

theorem answered_run {w : Connection} {moves : List Move}
    (hrun : Run (ConnStep credentials) .start moves w) : Answered credentials moves w :=
  hrun.history (I := Answered credentials) answered_step answered_start

/-- **HEADLINE.** However a client cuts up what it writes and whenever it closes, its
    connection puts at most one event on the channel, the one its bytes stand for, and
    sends it no descriptor but the main loop's answer to that event. -/
theorem connection_answers {w : Connection} {moves : List Move}
    (hrun : Run (ConnStep credentials) .start moves w) :
    w.sent.length ≤ 1
      ∧ (∀ event ∈ w.sent, handleConnection credentials w.written = some event)
      ∧ (w.task = .returned → w.sent = (handleConnection credentials w.written).toList)
      ∧ ∀ fd, w.reply = some fd → ∃ name,
        handleConnection credentials w.written = some (.getPty name credentials)
          ∧ Granted credentials moves name fd := by
  have hanswered := answered_run hrun
  have hheard := hanswered.heard
  have hcases := hheard.sent_cases
  refine ⟨?_, fun event hmem => ?_, fun htask => ?_, fun fd hfd => ?_⟩
  · rcases hcases with hnil | ⟨event, hone, -⟩
    · rw [hnil]
      exact Nat.zero_le _
    · rw [hone]
      exact Nat.le_refl _
  · rcases hcases with hnil | ⟨event', hone, hevent⟩
    · rw [hnil] at hmem
      exact nomatch hmem
    · rw [hone, List.mem_singleton] at hmem
      rw [hmem]
      exact hevent
  · rw [Heard] at hheard
    rw [htask] at hheard
    exact hheard
  · obtain ⟨name, hsent, hgranted⟩ := hanswered.fd fd (.inr hfd)
    rcases hcases with hnil | ⟨event, hone, hevent⟩
    · exact nomatch hnil.symm.trans hsent
    · cases hone.symm.trans hsent
      exact ⟨name, hevent, hgranted⟩

/-- The user's service `tty` runs on a PTY. -/
def createTty : Os × Event :=
  (steadyOs 100 0 [], .command (.createService "tty" { webService with pty := true }) ⟨1000, 1000⟩)

/-- Its name arrives in two pieces and is read in three. -/
def ttyMoves : List Move :=
  [.write [3, 116], .read 0, .write [116, 121], .read 0, .read 7, .send,
    .answer (steadyOs 0 0 []) (machineAfter [createTty]), .reply true]

theorem connection_answers_tty :
    ∃ w : Connection, w.reply = some ⟨"/dev/pts/0"⟩ ∧ w.sent.length ≤ 1
      ∧ ∀ fd, w.reply = some fd → ∃ name, handleConnection ⟨1000, 1000⟩ w.written
        = some (.getPty name ⟨1000, 1000⟩) ∧ Granted ⟨1000, 1000⟩ ttyMoves name fd := by
  have hrun : ((ttyMoves.foldlM (connStep ⟨1000, 1000⟩) .start).map (·.reply))
      = some (some ⟨"/dev/pts/0"⟩) := by decide +kernel
  obtain ⟨w, hrun, hreply⟩ := Option.map_eq_some_iff.mp hrun
  obtain ⟨hone, -, -, hfd⟩ := connection_answers (.of_foldlM hrun)
  exact ⟨w, hreply, hone, hfd⟩

end Heard

/-! ## The client -/

/-- Where `get_pty_from_store` is. -/
inductive ClientAt where
  /-- In a `write_all`, with the buffers of the calls after it. -/
  | writing (left : List UInt8) (calls : List (List UInt8))
  /-- In `socket_recv_fd`. -/
  | receiving
  | received (fd : Option Pty)
  | panicked
deriving DecidableEq

structure Exchange where
  conn : Connection
  client : ClientAt

/-- What the client writes. -/
def request (name : String) : List UInt8 :=
  UInt8.ofNat (toOsString name).length :: toOsString name

/-- The client is connected.  `name.len().try_into().unwrap()` panics where the length
    is not a byte, and the panic closes the socket. -/
def Exchange.start (name : String) : Exchange :=
  if (toOsString name).length < 256 then
    ⟨.start, .writing [UInt8.ofNat (toOsString name).length] [toOsString name]⟩
  else ⟨{ Connection.start with peerClosed := true }, .panicked⟩

inductive ExchangeMove where
  /-- The next call of the client, which writes at most one byte more than this. -/
  | client (count : Nat)
  | task (move : Move)

/-- The client's end is closed, and it has come to its result. -/
def Exchange.finish (w : Exchange) (client : ClientAt) : Exchange :=
  ⟨{ w.conn with peerClosed := true }, client⟩

section Steps

variable (credentials : Credentials)

def clientStep (w : Exchange) (count : Nat) : Option Exchange :=
  match w.client with
  | .writing [] [] => some { w with client := .receiving }
  | .writing [] (next :: calls) => some { w with client := .writing next calls }
  | .writing (b :: left) calls =>
      match connStep credentials w.conn (.write ((b :: left).take (count + 1))) with
      | some conn => some ⟨conn, .writing ((b :: left).drop (count + 1)) calls⟩
      -- `write_all(..).unwrap()` on a broken pipe
      | none => some (w.finish .panicked)
  | .receiving =>
      match w.conn.reply with
      | some fd => some (w.finish (.received (some fd)))
      -- the end of the stream carries no descriptor
      | none => if w.conn.task = .returned then some (w.finish (.received none)) else none
  | .received _ | .panicked => none

def exchangeStep (w : Exchange) : ExchangeMove → Option Exchange
  | .client count => clientStep credentials w count
  | .task (.write _) | .task .close => none
  | .task move => (connStep credentials w.conn move).map fun conn => { w with conn }

def ExchangeStep (w : Exchange) (move : ExchangeMove) (w' : Exchange) : Prop :=
  exchangeStep credentials w move = some w'

end Steps

/-! ## A whole exchange -/

section Exchange

variable {credentials : Credentials} {name : String}

/-- What the connection sees of a move. -/
def ExchangeMove.conn : ExchangeMove → Move
  | .client _ => .close
  | .task move => move

/-- Where the client is says what it has written, and what its result was. -/
def ClientOk (credentials : Credentials) (name : String) (moves : List Move) (w : Exchange) : Prop :=
  match w.client with
  | .writing left calls =>
      w.conn.written ++ (left ++ calls.flatten) = request name ∧ w.conn.peerClosed = false
  | .receiving => w.conn.written = request name ∧ w.conn.peerClosed = false
  | .received (some fd) => w.conn.task = .returned ∧ Granted credentials moves name fd
  | .received none =>
      w.conn.task = .returned ∧ (Refused credentials moves name ∨ .reply false ∈ moves)
  | .panicked => False

/-- The task has the whole name, once it is done reading. -/
def Whole (name : String) (conn : Connection) : Prop :=
  conn.task = .readLen ∨ (∃ nameLen got, conn.task = .readName nameLen got)
    ∨ conn.written = request name

/-- **The invariant** of an exchange. -/
structure Polite (credentials : Credentials) (name : String) (moves : List Move) (w : Exchange) :
    Prop where
  answered : Answered credentials moves w.conn
  client : ClientOk credentials name moves w
  whole : Whole name w.conn

theorem polite_start (hlen : (toOsString name).length < 256) :
    Polite credentials name [] (.start name) := by
  rw [Exchange.start, if_pos hlen]
  refine ⟨answered_start, ⟨?_, rfl⟩, .inl rfl⟩
  rw [List.flatten_singleton]
  rfl

theorem request_toNat (hlen : (toOsString name).length < 256) :
    (UInt8.ofNat (toOsString name).length).toNat = (toOsString name).length := by
  rw [UInt8.toNat_ofNat']
  exact Nat.mod_eq_of_lt hlen

/-- **The round trip**: the task reads the request as the name it was made for. -/
theorem handleConnection_request (hlen : (toOsString name).length < 256) :
    handleConnection credentials (request name) = some (.getPty name credentials) := by
  have hwhole : handleConnection credentials (_ :: (toOsString name ++ [])) = _ :=
    handleConnection_whole _ [] (request_toNat hlen).symm
  rw [List.append_nil, fromUTF8?_eq_some.mpr rfl] at hwhole
  exact hwhole

/-- The name is read to its end and no further. -/
theorem afterRead_request {nameLen : UInt8} {got rest : List UInt8}
    (hlen : (toOsString name).length < 256) (hgot : got.length ≤ nameLen.toNat)
    (hwritten : nameLen :: (got ++ rest) <+: request name) :
    afterRead nameLen got = .readName nameLen got
      ∨ (nameLen :: (got ++ rest) = request name ∧ afterRead nameLen got = .sending name) := by
  obtain ⟨hhead, hbytes⟩ := List.cons_prefix_cons.mp hwritten
  have hsize : nameLen.toNat = (toOsString name).length := hhead ▸ request_toNat hlen
  rw [afterRead]
  by_cases hmore : got.length < nameLen.toNat
  · exact .inl (if_pos hmore)
  · have hle := hbytes.length_le
    rw [List.length_append] at hle
    obtain rfl : rest = [] := List.eq_nil_of_length_eq_zero (by omega)
    rw [List.append_nil] at hbytes ⊢
    obtain rfl : got = toOsString name := hbytes.eq_of_length (by omega)
    rw [if_neg hmore, fromUTF8?_eq_some.mpr rfl, hhead]
    exact .inr ⟨rfl, rfl⟩

/-- A client that has not come to its result has written the request in part, and holds on
    to its end. -/
theorem ClientOk.prefix_open {moves : List Move} {w : Exchange}
    (h : ClientOk credentials name moves w) (htask : w.conn.task ≠ .returned) :
    w.conn.written <+: request name ∧ w.conn.peerClosed = false := by
  rw [ClientOk] at h
  cases hclient : w.client with
  | writing left calls =>
      rw [hclient] at h
      exact ⟨⟨_, h.1⟩, h.2⟩
  | receiving =>
      rw [hclient] at h
      exact ⟨h.1 ▸ List.prefix_refl _, h.2⟩
  | received fd =>
      rw [hclient] at h
      cases fd with
      | some fd => exact absurd h.1 htask
      | none => exact absurd h.1 htask
  | panicked =>
      rw [hclient] at h
      exact h.elim

theorem ClientOk.more {moves : List Move} {w w' : Exchange} (move : Move)
    (h : ClientOk credentials name moves w) (hclient : w'.client = w.client)
    (hwritten : w'.conn.written = w.conn.written) (hclosed : w'.conn.peerClosed = w.conn.peerClosed)
    (htask : w.conn.task = .returned → w'.conn.task = .returned) :
    ClientOk credentials name (moves ++ [move]) w' := by
  rw [ClientOk] at h ⊢
  rw [hclient, hwritten, hclosed]
  cases hc : w.client with
  | writing left calls | receiving =>
      rw [hc] at h
      exact h
  | received fd =>
      rw [hc] at h
      cases fd with
      | some fd => exact ⟨htask h.1, h.2.more move⟩
      | none =>
          exact ⟨htask h.1, h.2.imp (fun hr => hr.more move) fun hr => List.mem_append_left _ hr⟩
  | panicked =>
      rw [hc] at h
      exact h.elim

/-- The moves of the task leave the peer's side of the stream alone, and what the task
    has read it has read whole. -/
theorem polite_task {w : Exchange} {conn : Connection} {moves : List Move} {move : Move}
    (hlen : (toOsString name).length < 256) (h : Polite credentials name moves w)
    (hmove : ∀ bytes, move ≠ .write bytes) (hmove' : move ≠ .close)
    (hstep : ConnStep credentials w.conn move conn) :
    Polite credentials name (moves ++ [move]) { w with conn } := by
  have hanswered := answered_step h.answered hstep
  have hheard := h.answered.heard
  rw [Heard] at hheard
  -- what becomes of the client and of the whole name, from what becomes of the task
  have hkept : w.conn.task ≠ .returned → conn.written = w.conn.written →
      conn.peerClosed = w.conn.peerClosed → Whole name conn →
      Polite credentials name (moves ++ [move]) { w with conn } := by
    intro htask hwritten hclosed hwhole
    exact ⟨hanswered, h.client.more move rfl hwritten hclosed fun hret => absurd hret htask, hwhole⟩
  have hdone : w.conn.task ≠ .readLen → (∀ nameLen got, w.conn.task ≠ .readName nameLen got) →
      w.conn.written = request name := by
    intro hlen' hname'
    rcases h.whole with htask | ⟨nameLen, got, htask⟩ | hwritten
    · exact absurd htask hlen'
    · exact absurd htask (hname' _ _)
    · exact hwritten
  cases connStep_moved hstep h.answered.heard.name_short with
  | wrote _ _ => exact absurd rfl (hmove _)
  | closed _ => exact absurd rfl hmove'
  | ended htask _ hclosed =>
      have hrunning : w.conn.task ≠ .returned := by
        rcases htask with htask | ⟨_, _, htask⟩ <;> exact htask ▸ nofun
      exact nomatch hclosed.symm.trans (h.client.prefix_open hrunning).2
  | @readLen count nameLen rest htask hunread =>
      rw [htask] at hheard
      have hrunning : w.conn.task ≠ .returned := htask ▸ nofun
      have hwritten : w.conn.written = nameLen :: ([] ++ rest) := hheard.1.trans hunread
      have hprefix := (h.client.prefix_open hrunning).1
      refine hkept hrunning rfl rfl ?_
      rw [hwritten] at hprefix
      rcases afterRead_request hlen (Nat.zero_le _) hprefix with hread | ⟨hwhole, -⟩
      · exact .inr (.inl ⟨_, _, hread⟩)
      · exact .inr (.inr (hwritten.trans hwhole))
  | @readName count nameLen got taken rest htask hunread _ htaken =>
      rw [htask] at hheard
      have hrunning : w.conn.task ≠ .returned := htask ▸ nofun
      have hwritten : w.conn.written = nameLen :: ((got ++ taken) ++ rest) := by
        rw [hheard.1, hunread, List.append_assoc]
      have hprefix := (h.client.prefix_open hrunning).1
      refine hkept hrunning rfl rfl ?_
      rw [hwritten] at hprefix
      have hgot : (got ++ taken).length ≤ nameLen.toNat := by
        have hshort := hheard.2.1
        rw [List.length_append]
        omega
      rcases afterRead_request hlen hgot hprefix with hread | ⟨hwhole, -⟩
      · exact .inr (.inl ⟨_, _, hread⟩)
      · exact .inr (.inr (hwritten.trans hwhole))
  | sent htask | granted htask _ | refused htask _ _ | replied htask _ =>
      have hwhole := hdone (htask ▸ nofun) fun _ _ => htask ▸ nofun
      exact hkept (htask ▸ nofun) rfl rfl (.inr (.inr hwhole))

/-- The client writes its request to a task that is there to read it, and takes the
    result the task leaves it. -/
theorem polite_client {w w' : Exchange} {moves : List Move} {count : Nat} (move : Move)
    (hlen : (toOsString name).length < 256) (h : Polite credentials name moves w)
    (hstep : clientStep credentials w count = some w') :
    Polite credentials name (moves ++ [move]) w' := by
  have hok := h.client
  rw [ClientOk] at hok
  have hsame : Answered credentials (moves ++ [move]) w.conn :=
    h.answered.of_same h.answered.heard rfl id (.inl ⟨rfl, rfl⟩)
  have hends : ∀ client, Answered credentials (moves ++ [move]) (w.finish client).conn :=
    fun _ => h.answered.of_same h.answered.heard rfl (fun _ => rfl) (.inl ⟨rfl, rfl⟩)
  unfold clientStep at hstep
  cases hclient : w.client with
  | writing left calls =>
      rw [hclient] at hstep hok
      cases left with
      | nil =>
          cases calls with
          | nil =>
              cases hstep
              refine ⟨hsame, ⟨?_, hok.2⟩, h.whole⟩
              exact (List.append_nil _).symm.trans hok.1
          | cons next calls =>
              cases hstep
              exact ⟨hsame, hok, h.whole⟩
      | cons b left =>
          have hrunning : w.conn.task ≠ .returned := by
            intro htask
            rcases h.whole with hread | ⟨_, _, hread⟩ | hwhole
            · exact nomatch htask.symm.trans hread
            · exact nomatch htask.symm.trans hread
            · have hlength := congrArg List.length (hwhole.trans hok.1.symm)
              simp only [List.length_append, List.length_cons] at hlength
              omega
          have hwrite : connStep credentials w.conn (.write ((b :: left).take (count + 1)))
              = some { w.conn with
                written := w.conn.written ++ (b :: left).take (count + 1)
                unread := w.conn.unread ++ (b :: left).take (count + 1) } := by
            rw [connStep, if_neg]
            rw [hok.2]
            exact not_or.mpr ⟨Bool.false_ne_true, hrunning⟩
          dsimp only at hstep
          rw [hwrite] at hstep
          cases hstep
          refine ⟨?_, ⟨?_, hok.2⟩, ?_⟩
          · exact h.answered.of_same (heard_write _ h.answered.heard hrunning) rfl id (.inl ⟨rfl, rfl⟩)
          · rw [List.append_assoc, ← List.append_assoc (List.take _ _), List.take_append_drop]
            exact hok.1
          · rcases h.whole with hread | hread | hwhole
            · exact .inl hread
            · exact .inr (.inl hread)
            · have hlength := congrArg List.length (hwhole.trans hok.1.symm)
              simp only [List.length_append, List.length_cons] at hlength
              omega
  | receiving =>
      rw [hclient] at hstep hok
      have hsent : w.conn.task = .returned → w.conn.sent = [.getPty name credentials] := by
        intro htask
        have hheard := h.answered.heard
        rw [Heard] at hheard
        rw [htask, hok.1, handleConnection_request hlen] at hheard
        exact hheard
      dsimp only at hstep
      cases hreply : w.conn.reply with
      | some fd =>
          rw [hreply] at hstep
          cases hstep
          have htask : w.conn.task = .returned := by
            by_contra hrunning
            exact nomatch hreply.symm.trans (h.answered.unanswered hrunning)
          obtain ⟨name', hsent', hgranted⟩ := h.answered.fd fd (.inr hreply)
          cases (hsent htask).symm.trans hsent'
          exact ⟨hends _, ⟨htask, hgranted.more move⟩, h.whole⟩
      | none =>
          rw [hreply] at hstep
          dsimp only at hstep
          by_cases htask : w.conn.task = .returned
          · rw [if_pos htask] at hstep
            cases hstep
            refine ⟨hends _, ⟨htask, ?_⟩, h.whole⟩
            rcases h.answered.refused htask hreply name (hsent htask) with hr | hr | hr
            · exact .inl (hr.more move)
            · exact .inr (List.mem_append_left _ hr)
            · exact nomatch hok.2.symm.trans hr
          · rw [if_neg htask] at hstep
            exact nomatch hstep
  | received _ | panicked =>
      rw [hclient] at hstep
      exact nomatch hstep

theorem polite_step {w w' : Exchange} {moves : List ExchangeMove} {move : ExchangeMove}
    (hlen : (toOsString name).length < 256)
    (h : Polite credentials name (moves.map ExchangeMove.conn) w)
    (hstep : ExchangeStep credentials w move w') :
    Polite credentials name ((moves ++ [move]).map ExchangeMove.conn) w' := by
  rw [List.map_append]
  cases move with
  | client count => exact polite_client _ hlen h hstep
  | task move =>
      have htask : (∀ bytes, move ≠ .write bytes) → move ≠ .close →
          (connStep credentials w.conn move).map (fun conn => { w with conn }) = some w' →
          Polite credentials name (moves.map ExchangeMove.conn ++ [move]) w' := by
        intro hwrite hclose hconn
        obtain ⟨conn, hmoved, rfl⟩ := Option.map_eq_some_iff.mp hconn
        exact polite_task hlen h hwrite hclose hmoved
      cases move with
      | write bytes | close => exact nomatch hstep
      | read count | send | answer os m | reply ok => exact htask (fun _ => nofun) nofun hstep

theorem polite_run {w : Exchange} {moves : List ExchangeMove}
    (hlen : (toOsString name).length < 256)
    (hrun : Run (ExchangeStep credentials) (.start name) moves w) :
    Polite credentials name (moves.map ExchangeMove.conn) w :=
  hrun.history (I := fun moves => Polite credentials name (moves.map ExchangeMove.conn))
    (polite_step hlen) (polite_start hlen)

/-! ## Every exchange comes to its end -/

/-- The moves a task has left, at most. -/
def TaskAt.left : TaskAt → Nat
  | .readLen => 259
  | .readName nameLen got => (nameLen.toNat - got.length) + 3
  | .sending _ => 3
  | .waiting _ => 2
  | .replying _ => 1
  | .returned => 0

/-- The calls a client has left, at most. -/
def ClientAt.left : ClientAt → Nat
  | .writing left calls => left.length + calls.flatten.length + calls.length + 2
  | .receiving => 1
  | .received _ | .panicked => 0

def Exchange.left (w : Exchange) : Nat := w.conn.task.left + w.client.left

theorem afterRead_left (nameLen : UInt8) (got : List UInt8) :
    (afterRead nameLen got).left ≤ (nameLen.toNat - got.length) + 3 := by
  rcases afterRead_cases nameLen got with hr | ⟨s, hr⟩ | hr
  · rw [hr]
    exact Nat.le_refl _
  · rw [hr]
    exact Nat.le_add_left 3 _
  · rw [hr]
    exact Nat.zero_le _

theorem task_left {w w' : Connection} {move : Move} (h : Heard credentials w)
    (hstep : ConnStep credentials w move w') (hmove : ∀ bytes, move ≠ .write bytes)
    (hmove' : move ≠ .close) : w'.task.left < w.task.left := by
  cases connStep_moved hstep h.name_short with
  | wrote _ _ => exact absurd rfl (hmove _)
  | closed _ => exact absurd rfl hmove'
  | ended htask _ _ =>
      rcases htask with htask | ⟨nameLen, got, htask⟩
      · rw [htask]
        exact Nat.zero_lt_succ _
      · rw [htask]
        exact Nat.zero_lt_succ _
  | @readLen count nameLen rest htask _ =>
      have hleft := afterRead_left nameLen []
      have hbyte := nameLen.toNat_lt
      rw [htask]
      rw [List.length_nil] at hleft
      show (afterRead nameLen []).left < 259
      omega
  | @readName count nameLen got taken rest htask _ htaken hfit =>
      have hleft := afterRead_left nameLen (got ++ taken)
      have hpos := List.length_pos_iff.mpr htaken
      rw [htask]
      rw [List.length_append] at hleft
      show (afterRead nameLen (got ++ taken)).left < (nameLen.toNat - got.length) + 3
      omega
  | sent htask | granted htask _ | replied htask _ =>
      rw [htask]
      exact Nat.lt_succ_self _
  | refused htask _ _ =>
      rw [htask]
      exact Nat.zero_lt_succ 1

/-- A call of the client leaves the task where it is. -/
theorem client_left {w w' : Exchange} {count : Nat}
    (hstep : clientStep credentials w count = some w') :
    w'.client.left < w.client.left ∧ w'.conn.task = w.conn.task := by
  unfold clientStep at hstep
  cases hclient : w.client with
  | writing left calls =>
      rw [hclient] at hstep
      cases left with
      | nil =>
          cases calls with
          | nil =>
              cases hstep
              exact ⟨Nat.lt_succ_self 1, rfl⟩
          | cons next calls =>
              cases hstep
              refine ⟨?_, rfl⟩
              simp only [ClientAt.left, List.flatten_cons, List.length_append, List.length_cons,
                List.length_nil]
              omega
      | cons b left =>
          dsimp only at hstep
          cases hwrite : connStep credentials w.conn (.write ((b :: left).take (count + 1))) with
          | none =>
              rw [hwrite] at hstep
              cases hstep
              refine ⟨?_, rfl⟩
              simp only [Exchange.finish, ClientAt.left]
              omega
          | some conn =>
              rw [hwrite] at hstep
              cases hstep
              have htask : conn.task = w.conn.task := by
                rw [connStep] at hwrite
                split at hwrite
                · exact nomatch hwrite
                · cases hwrite
                  rfl
              refine ⟨?_, htask⟩
              simp only [ClientAt.left, List.length_drop, List.length_cons]
              omega
  | receiving =>
      rw [hclient] at hstep
      dsimp only at hstep
      cases hreply : w.conn.reply with
      | some fd =>
          rw [hreply] at hstep
          cases hstep
          exact ⟨Nat.lt_succ_self 0, rfl⟩
      | none =>
          rw [hreply] at hstep
          dsimp only at hstep
          by_cases htask : w.conn.task = .returned
          · rw [if_pos htask] at hstep
            cases hstep
            exact ⟨Nat.lt_succ_self 0, rfl⟩
          · rw [if_neg htask] at hstep
            exact nomatch hstep
  | received _ | panicked =>
      rw [hclient] at hstep
      exact nomatch hstep

theorem exchange_left {w w' : Exchange} {move : ExchangeMove} (h : Heard credentials w.conn)
    (hstep : ExchangeStep credentials w move w') : w'.left < w.left := by
  cases move with
  | client count =>
      obtain ⟨hclient, htask⟩ := client_left hstep
      rw [Exchange.left, Exchange.left, htask]
      omega
  | task move =>
      have htask : (∀ bytes, move ≠ .write bytes) → move ≠ .close →
          (connStep credentials w.conn move).map (fun conn => { w with conn }) = some w' →
          w'.left < w.left := by
        intro hwrite hclose hconn
        obtain ⟨conn, hmoved, rfl⟩ := Option.map_eq_some_iff.mp hconn
        have hleft := task_left h hmoved hwrite hclose
        simp only [Exchange.left]
        omega
      cases move with
      | write bytes | close => exact nomatch hstep
      | read count | send | answer os m | reply ok => exact htask (fun _ => nofun) nofun hstep

/-- A client that writes can always go on. -/
theorem client_writes (w : Exchange) {left : List UInt8} {calls : List (List UInt8)}
    (hclient : w.client = .writing left calls) :
    ∃ w', ExchangeStep credentials w (.client 0) w' := by
  show ∃ w', clientStep credentials w 0 = some w'
  unfold clientStep
  rw [hclient]
  cases left with
  | nil => cases calls <;> exact ⟨_, rfl⟩
  | cons b left =>
      dsimp only
      cases connStep credentials w.conn (.write ((b :: left).take 1)) <;> exact ⟨_, rfl⟩

/-- A task with something to read can read it. -/
theorem task_reads (w : Exchange) (hunread : w.conn.unread ≠ [])
    (htask : w.conn.task = .readLen ∨ ∃ nameLen got, w.conn.task = .readName nameLen got) :
    ∃ w', ExchangeStep credentials w (.task (.read 0)) w' := by
  show ∃ w', (w.conn.read 0).map _ = some w'
  unfold Connection.read
  cases hcons : w.conn.unread with
  | nil => exact absurd hcons hunread
  | cons next rest =>
      rcases htask with htask | ⟨nameLen, got, htask⟩
      · rw [htask]
        exact ⟨_, rfl⟩
      · rw [htask]
        exact ⟨_, rfl⟩

/-- Nobody waits for nothing: an exchange is over, waits for the main loop, or goes on. -/
theorem exchange_goes_on {w : Exchange} {moves : List Move}
    (hlen : (toOsString name).length < 256) (h : Polite credentials name moves w) :
    (∃ fd, w.client = .received fd) ∨ w.conn.task = .waiting name
      ∨ ∃ move w', ExchangeStep credentials w move w' := by
  have hheard := h.answered.heard
  rw [Heard] at hheard
  have hok := h.client
  rw [ClientOk] at hok
  cases hclient : w.client with
  | writing left calls => exact .inr (.inr ⟨_, client_writes w hclient⟩)
  | received fd => exact .inl ⟨fd, rfl⟩
  | panicked =>
      rw [hclient] at hok
      exact hok.elim
  | receiving =>
      rw [hclient] at hok
      refine .inr ?_
      cases htask : w.conn.task with
      | readLen =>
          rw [htask] at hheard
          refine .inr ⟨_, task_reads w ?_ (.inl htask)⟩
          rw [← hheard.1, hok.1]
          exact nofun
      | readName nameLen got =>
          rw [htask] at hheard
          refine .inr ⟨_, task_reads w (fun hnil => ?_) (.inr ⟨_, _, htask⟩)⟩
          -- the name is not whole, but all of it was written
          have hwritten := hok.1.symm.trans hheard.1
          rw [hnil, List.append_nil] at hwritten
          obtain ⟨hhead, hgot⟩ := List.cons.inj hwritten
          have hshort := hheard.2.1
          rw [← hhead, request_toNat hlen, hgot] at hshort
          exact Nat.lt_irrefl _ hshort
      | sending name' =>
          refine .inr ⟨.task .send, ?_⟩
          show ∃ w', (connStep credentials w.conn .send).map _ = some w'
          unfold connStep
          rw [htask]
          exact ⟨_, rfl⟩
      | waiting name' =>
          rw [htask, hok.1, handleConnection_request hlen] at hheard
          cases hheard.1
          exact .inl rfl
      | replying fd =>
          refine .inr ⟨.task (.reply true), ?_⟩
          show ∃ w', (connStep credentials w.conn (.reply true)).map _ = some w'
          unfold connStep
          rw [htask]
          exact ⟨_, rfl⟩
      | returned =>
          refine .inr ⟨.client 0, ?_⟩
          show ∃ w', clientStep credentials w 0 = some w'
          unfold clientStep
          rw [hclient]
          dsimp only
          cases w.conn.reply with
          | some fd => exact ⟨_, rfl⟩
          | none => exact ⟨_, if_pos htask⟩

/-- The main loop's answer, if it gives one, is taken. -/
theorem answer_taken {w : Exchange} (hwaiting : w.conn.task = .waiting name) {os : Os} {m : Machine}
    {outcome : Outcome Reply} (h : handleEvent os m (.getPty name credentials) = .ok outcome) :
    ∃ w', ExchangeStep credentials w (.task (.answer os m)) w' := by
  show ∃ w', (connStep credentials w.conn (.answer os m)).map _ = some w'
  unfold connStep
  rw [hwaiting]
  dsimp only
  rw [h]
  split
  · exact ⟨_, rfl⟩
  · exact ⟨_, rfl⟩
  · rename_i hpanic
    exact nomatch hpanic

/-- What a client of `get_pty_from_store` can count on. -/
structure Served (credentials : Credentials) (name : String) (moves : List ExchangeMove)
    (w : Exchange) : Prop where
  unharmed : w.client ≠ .panicked
  /-- It gets the descriptor the main loop gave for its name, -/
  granted : ∀ fd, w.client = .received (some fd) → ∃ os m m', .task (.answer os m) ∈ moves
    ∧ handleEvent os m (.getPty name credentials) = .ok (.pty (.ok fd), m')
  /-- or none, where the main loop had none or it could not be sent. -/
  refused : w.client = .received none → (∃ os m m' reply, .task (.answer os m) ∈ moves
      ∧ handleEvent os m (.getPty name credentials) = .ok (reply, m')
      ∧ ∀ fd, reply ≠ .pty (.ok fd))
    ∨ .task (.reply false) ∈ moves
  /-- It has its result after so many calls of both sides, -/
  bounded : moves.length ≤ (toOsString name).length + 263
  /-- and until then only the main loop can keep it waiting. -/
  served : (∃ fd, w.client = .received fd) ∨ (∃ move w', ExchangeStep credentials w move w')
    ∨ ∀ os m outcome, handleEvent os m (.getPty name credentials) = .ok outcome →
      ∃ w', ExchangeStep credentials w (.task (.answer os m)) w'

theorem mem_of_mem_conn {moves : List ExchangeMove} {move : Move} (hmove : move ≠ .close)
    (h : move ∈ moves.map ExchangeMove.conn) : .task move ∈ moves := by
  obtain ⟨emove, hmem, heq⟩ := List.mem_map.mp h
  cases emove with
  | client count => exact absurd heq.symm hmove
  | task other =>
      obtain rfl : other = move := heq
      exact hmem

/-- **HEADLINE.** Whatever pieces the request is written and read in, a client that asks
    for a name of fewer than 256 bytes is served. -/
theorem exchange_served {w : Exchange} {moves : List ExchangeMove}
    (hlen : (toOsString name).length < 256)
    (hrun : Run (ExchangeStep credentials) (.start name) moves w) :
    Served credentials name moves w := by
  have hpolite := polite_run hlen hrun
  have hok := hpolite.client
  rw [ClientOk] at hok
  refine ⟨fun hclient => ?_, fun fd hclient => ?_, fun hclient => ?_, ?_, ?_⟩
  · rw [hclient] at hok
    exact hok
  · rw [hclient] at hok
    obtain ⟨os, m, m', hmem, hreply⟩ := hok.2
    exact ⟨os, m, m', mem_of_mem_conn nofun hmem, hreply⟩
  · rw [hclient] at hok
    rcases hok.2 with ⟨os, m, m', reply, hmem, hreply⟩ | hmem
    · exact .inl ⟨os, m, m', reply, mem_of_mem_conn nofun hmem, hreply⟩
    · exact .inr (mem_of_mem_conn nofun hmem)
  · have hleft := hrun.length_le
      (I := fun w => ∃ moves : List ExchangeMove,
        Polite credentials name (moves.map ExchangeMove.conn) w) (f := Exchange.left)
      (fun ⟨moves, h⟩ hstep => ⟨_, polite_step hlen h hstep⟩)
      (fun ⟨_, h⟩ hstep => exchange_left h.answered.heard hstep)
      ⟨[], polite_start hlen⟩
    have hstart : (Exchange.start name).left = (toOsString name).length + 263 := by
      rw [Exchange.start, if_pos hlen, Exchange.left]
      simp only [Connection.start, TaskAt.left, ClientAt.left, List.flatten_singleton,
        List.length_cons, List.length_nil]
      omega
    omega
  · rcases exchange_goes_on hlen hpolite with hdone | hwaiting | hmove
    · exact .inl hdone
    · exact .inr (.inr fun os m outcome => answer_taken hwaiting)
    · exact .inr (.inl hmove)

/-- Only the peer's writes add to what was written. -/
theorem written_of_task {w w' : Connection} {move : Move} (h : Heard credentials w)
    (hstep : ConnStep credentials w move w') (hmove : ∀ bytes, move ≠ .write bytes) :
    w'.written = w.written := by
  cases connStep_moved hstep h.name_short with
  | wrote _ _ => exact absurd rfl (hmove _)
  | closed _ | ended _ _ _ | readLen _ _ | readName _ _ _ _ | sent _ | granted _ _ | refused _ _ _
  | replied _ _ => rfl

/-- A client that asks for a longer name panics, and the main loop hears nothing of it. -/
theorem long_name_unheard {w : Exchange} {moves : List ExchangeMove}
    (hlen : 256 ≤ (toOsString name).length)
    (hrun : Run (ExchangeStep credentials) (.start name) moves w) :
    w.client = .panicked ∧ w.conn.sent = [] := by
  have hinv : w.client = .panicked ∧ w.conn.written = [] ∧ Heard credentials w.conn := by
    refine hrun.invariant (I := fun w => w.client = .panicked ∧ w.conn.written = []
      ∧ Heard credentials w.conn) ?_ ?_
    · rintro w move w' ⟨hclient, hwritten, hheard⟩ hstep
      cases move with
      | client count =>
          have hnone : clientStep credentials w count = none := by
            unfold clientStep
            rw [hclient]
          exact nomatch hnone.symm.trans hstep
      | task move =>
          have htask : (∀ bytes, move ≠ .write bytes) →
              (connStep credentials w.conn move).map (fun conn => { w with conn }) = some w' →
              w'.client = .panicked ∧ w'.conn.written = [] ∧ Heard credentials w'.conn := by
            intro hwrite hconn
            obtain ⟨conn, hmoved, rfl⟩ := Option.map_eq_some_iff.mp hconn
            exact ⟨hclient, (written_of_task hheard hmoved hwrite).trans hwritten,
              heard_step hheard hmoved⟩
          cases move with
          | write bytes | close => exact nomatch hstep
          | read count | send | answer os m | reply ok => exact htask (fun _ => nofun) hstep
    · rw [Exchange.start, if_neg (Nat.not_lt.mpr hlen)]
      exact ⟨rfl, rfl, rfl, rfl⟩
  obtain ⟨hclient, hwritten, hheard⟩ := hinv
  refine ⟨hclient, ?_⟩
  rcases hheard.sent_cases with hnil | ⟨event, -, hevent⟩
  · exact hnil
  · rw [hwritten] at hevent
    exact nomatch hevent

/-- `beamctl attach tty`, one call after the other. -/
def ttyExchange : List ExchangeMove :=
  [.client 0, .client 0, .client 1, .task (.read 0), .client 9, .task (.read 0), .client 0,
    .task (.read 9), .task .send, .task (.answer (steadyOs 0 0 []) (machineAfter [createTty])),
    .task (.reply true), .client 0]

theorem exchange_served_tty : ∃ w : Exchange, w.client = .received (some ⟨"/dev/pts/0"⟩)
    ∧ Served ⟨1000, 1000⟩ "tty" ttyExchange w := by
  have hrun : ((ttyExchange.foldlM (exchangeStep ⟨1000, 1000⟩) (.start "tty")).map (·.client))
      = some (.received (some ⟨"/dev/pts/0"⟩)) := by decide +kernel
  obtain ⟨w, hrun, hclient⟩ := Option.map_eq_some_iff.mp hrun
  exact ⟨w, hclient, exchange_served (by decide +kernel) (.of_foldlM hrun)⟩

end Exchange

end BeamPtyStore
