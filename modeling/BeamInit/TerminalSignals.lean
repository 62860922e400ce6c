import BeamInit.Terminal

/-! # Attached signals — one read for each readiness event

    The signalfd is reported once for all signals that came since it last was, and
    the loop reads one signal for each report.  So a signal that comes while a
    report is outstanding is left unread: the number of signals without an event
    never falls, and it is zero exactly when no signal ever came like that. -/

namespace BeamTerminalSignals

open BeamOs BeamTerminal Runs

/-! ## Events and signals -/

/-- The readiness events of the signalfd that `poll` has reported and the loop has not
    come to. -/
def reported : Phase → Nat
  | .handling events | .reading _ events | .writing _ _ events | .signalled _ events =>
      events.count .signalArrived
  | .syncing | .polling | .returned _ => 0

/-- The signal that has been read and is to be forwarded or to detach. -/
def inHand : Phase → List TtySignal
  | .signalled sig _ => [sig].filter (· ≠ .resize)
  | _ => []

/-- The readiness events that are to come or to be handled. -/
def due (w : Attachment) : Nat := (if w.edge then 1 else 0) + reported w.phase

def isArrival : AttachmentMove → Bool
  | .arrived _ => true
  | _ => false

/-- What a step does to the signals. -/
inductive SignalChange (w w' : Attachment) : AttachmentMove → Prop where
  | same {l : AttachmentMove} : isArrival l = false → w'.pending = w.pending →
      w'.edge = w.edge → w'.arrived = w.arrived → w'.taken = w.taken →
      w'.forwarded = w.forwarded →
      (w'.Runs → reported w'.phase = reported w.phase ∧ inHand w'.phase = inHand w.phase) →
      SignalChange w w' l
  | arrived {sig : TtySignal} : w' = { w with
        pending := w.pending ++ [sig], edge := true, arrived := w.arrived ++ [sig] } →
      SignalChange w w' (.arrived sig)
  | polled {events : List Token} : w.phase = .polling → w.Polls events → w' = { w with
        phase := .handling events, edge := w.edge && decide (Token.signalArrived ∉ events) } →
      SignalChange w w' (.polled events)
  | took {events : List Token} {sig : TtySignal} :
      w.phase = .handling (.signalArrived :: events) → sig ∈ w.pending → w' = { w with
        phase := .signalled sig events
        pending := w.pending.erase sig
        taken := w.taken ++ [sig] } →
      SignalChange w w' (.took sig)
  | forwarded {events : List Token} {sig : TtySignal} :
      w.phase = .signalled sig events → sig.isForwarded = true → w' = { w with
        phase := .handling events, forwarded := w.forwarded ++ [sig] } →
      SignalChange w w' .forwarded

/-- A copy loop that has returned runs no more. -/
theorem not_runs_of_returned {w : Attachment} {answer : Except CopyError Unit}
    (h : w.phase = .returned answer) : ¬w.Runs := fun hruns => hruns answer h

/-- What every step does to the signals. -/
theorem step_change {w w' : Attachment} {l : AttachmentMove} (h : AttachmentStep w l w') :
    SignalChange w w' l := by
  cases h with
  | arrived => exact .arrived rfl
  | polled hphase hpolls => exact .polled hphase hpolls rfl
  | took hphase hmem => exact .took hphase hmem rfl
  | forwarded hphase hsig => exact .forwarded hphase hsig rfl
  | merged => exact .same rfl rfl rfl rfl rfl rfl fun _ => ⟨rfl, rfl⟩
  | synced hphase | handled hphase | read hphase | resized hphase =>
      refine .same rfl rfl rfl rfl rfl rfl fun _ => ?_
      rw [hphase]
      exact ⟨rfl, rfl⟩
  | syncFailed | pollFailed | tookNothing | forwardFailed | detachFailed =>
      exact .same rfl rfl rfl rfl rfl rfl fun hruns => absurd hruns (not_runs_of_returned rfl)
  | @copies token dir events hphase hdir =>
      refine .same rfl rfl rfl rfl rfl rfl fun _ => ?_
      rw [hphase]
      refine ⟨(List.count_cons_of_ne ?_).symm, rfl⟩
      intro htoken
      rw [htoken] at hdir
      cases hdir
  | @wrote dir rest events n hphase hpos hle =>
      refine .same rfl rfl rfl rfl rfl rfl fun _ => ?_
      rw [hphase]
      by_cases hn : n = rest.length
      · rw [if_pos hn]
        exact ⟨rfl, rfl⟩
      · rw [if_neg hn]
        exact ⟨rfl, rfl⟩
  | endOfFile | detached =>
      exact .same rfl rfl rfl rfl rfl rfl fun hruns => absurd hruns (not_runs_of_returned rfl)
  | readFailed hphase | writeFailed hphase =>
      refine .same rfl rfl rfl rfl rfl rfl fun hruns => ?_
      rcases after_cases _ _ with ⟨answer, hafter⟩ | hafter
      · exact absurd hruns (not_runs_of_returned hafter)
      · rw [hphase]
        exact ⟨(congrArg reported hafter).trans rfl, (congrArg inHand hafter).trans rfl⟩

/-! ## Signals without an event -/

/-- A signal that comes while a readiness event is outstanding gets none of its own. -/
def unannounced (w : Attachment) (l : AttachmentMove) : Nat :=
  if isArrival l && w.edge then 1 else 0

/-- A poll reports the outstanding event once, or leaves it outstanding. -/
theorem count_reported {w : Attachment} {events : List Token} (hpolls : w.Polls events) :
    (if w.edge && decide (Token.signalArrived ∉ events) then 1 else 0)
      + events.count .signalArrived = if w.edge then 1 else 0 := by
  by_cases hmem : Token.signalArrived ∈ events
  · have hedge := (hpolls.signal.mp hmem).1
    rw [List.count_eq_one_of_mem hpolls.once hmem, hedge, decide_eq_false (not_not_intro hmem)]
    rfl
  · rw [List.count_eq_zero_of_not_mem hmem, decide_eq_true hmem, Bool.and_true, Nat.add_zero]

/-- The signals without an event grow by those that come unannounced. -/
theorem step_due {w w' : Attachment} {l : AttachmentMove} (hst : AttachmentStep w l w')
    (hruns : w'.Runs) :
    w'.pending.length + due w = w.pending.length + due w' + unannounced w l := by
  cases step_change hst with
  | same hl hpending hedge _ _ _ hphase =>
      rw [unannounced, hl, due, due, hpending, hedge, (hphase hruns).1]
      rfl
  | arrived hw' =>
      subst hw'
      show (w.pending ++ [_]).length + due w
        = w.pending.length + (1 + reported w.phase) + if w.edge then 1 else 0
      rw [List.length_append, due, List.length_singleton]
      omega
  | @polled events hphase hpolls hw' =>
      subst hw'
      show w.pending.length + due w = w.pending.length + (_ + events.count .signalArrived) + 0
      rw [count_reported hpolls, due, hphase]
      rfl
  | @took events sig hphase hmem hw' =>
      subst hw'
      have hpos := List.length_pos_of_mem hmem
      show (w.pending.erase sig).length + due w
        = w.pending.length + ((if w.edge then 1 else 0) + events.count .signalArrived) + 0
      rw [List.length_erase_of_mem hmem, due, hphase]
      change _ + (_ + (Token.signalArrived :: events).count .signalArrived) = _
      rw [List.count_cons_self]
      omega
  | forwarded hphase hsig hw' =>
      subst hw'
      rw [due, hphase]
      rfl

/-- What still runs has run all along. -/
theorem runs_of_run {w w' : Attachment} {ls : List AttachmentMove}
    (hrun : Run AttachmentStep w ls w') (hruns : w'.Runs) : w.Runs := by
  cases hrun with
  | nil _ => exact hruns
  | cons hst _ => exact runs_of_step hst

/-- An event is for a signal that can be read. -/
theorem due_le {w w' : Attachment} {ls : List AttachmentMove} (hrun : Run AttachmentStep w ls w')
    (hruns : w'.Runs) (h : due w ≤ w.pending.length) : due w' ≤ w'.pending.length := by
  induction hrun with
  | nil _ => exact h
  | cons hst hrest ih =>
      have hstep := step_due hst (runs_of_run hrest hruns)
      exact ih hruns (by omega)

/-- A signal that has no event gets none. -/
theorem without_event_mono {w w' : Attachment} {ls : List AttachmentMove}
    (hrun : Run AttachmentStep w ls w') (hruns : w'.Runs) :
    w.pending.length + due w' ≤ w'.pending.length + due w := by
  induction hrun with
  | nil _ => exact Nat.le_refl _
  | cons hst hrest ih =>
      have hstep := step_due hst (runs_of_run hrest hruns)
      have := ih hruns
      omega

/-! ## Signals that come alone -/

/-- A signal comes only while no readiness event of the signalfd is outstanding. -/
def Alone (w : Attachment) (l : AttachmentMove) (_ : Attachment) : Prop :=
  isArrival l = true → w.edge = false

/-- A signal that comes alone has an event of its own. -/
theorem unannounced_eq_zero {w w' : Attachment} {l : AttachmentMove} (h : Alone w l w') :
    unannounced w l = 0 := by
  rw [unannounced]
  cases hl : isArrival l with
  | false => rfl
  | true =>
      rw [h hl]
      rfl

/-- As long as every signal comes alone, each has its event. -/
theorem pending_eq_due {w w' : Attachment} {ls : List AttachmentMove}
    (hrun : Run (Where AttachmentStep Alone) w ls w') (hruns : w'.Runs)
    (h : w.pending.length = due w) : w'.pending.length = due w' := by
  induction hrun with
  | nil _ => exact h
  | cons hst hrest ih =>
      have hstep := step_due hst.1 (runs_of_run hrest.of_where hruns)
      rw [unannounced_eq_zero hst.2] at hstep
      exact ih hruns (by omega)

/-- And only then. -/
theorem alone_of_pending_le_due {w w' : Attachment} {ls : List AttachmentMove}
    (hrun : Run AttachmentStep w ls w') (hruns : w'.Runs) (h : due w ≤ w.pending.length)
    (hend : w'.pending.length ≤ due w') : Run (Where AttachmentStep Alone) w ls w' := by
  induction hrun with
  | nil w => exact .nil w
  | @cons w w₁ w' l ls hst hrest ih =>
      have hstep := step_due hst (runs_of_run hrest hruns)
      have hmono := without_event_mono hrest hruns
      have hzero : unannounced w l = 0 := by omega
      refine .cons ⟨hst, fun hl => ?_⟩ (ih hruns (by omega) hend)
      rw [unannounced, hl, Bool.true_and] at hzero
      cases hedge : w.edge with
      | false => rfl
      | true =>
          rw [hedge] at hzero
          cases hzero

/-! ## What becomes of the signals that are read -/

/-- What arrived is read or pending; what was read is forwarded, or in hand, or was a
    change of the window size. -/
structure Accounted (w : Attachment) : Prop where
  arrived : w.arrived.Perm (w.taken ++ w.pending)
  taken : w.Runs → w.taken.filter (· ≠ .resize) = w.forwarded ++ inHand w.phase
  forwarded : ∀ sig ∈ w.forwarded, sig.isForwarded = true

/-- A signal that is forwarded is in hand until then. -/
theorem inHand_of_isForwarded {sig : TtySignal} {events : List Token}
    (h : sig.isForwarded = true) : inHand (.signalled sig events) = [sig] := by
  cases sig with
  | interrupt | quit => rfl
  | stop | resize => cases h

/-- At first no signal has arrived. -/
theorem accounted_start : Accounted .start where
  arrived := .refl []
  taken _ := rfl
  forwarded _ h := absurd h List.not_mem_nil

/-- **Every step** accounts for the signals. -/
theorem accounted_step {w w' : Attachment} {l : AttachmentMove} (h : Accounted w)
    (hst : AttachmentStep w l w') : Accounted w' := by
  have htaken := h.taken (runs_of_step hst)
  cases step_change hst with
  | same _ hpending _ harrived htaken' hforwarded hphase =>
      refine ⟨?_, fun hruns => ?_, ?_⟩
      · rw [harrived, htaken', hpending]
        exact h.arrived
      · rw [htaken', hforwarded, (hphase hruns).2]
        exact htaken
      · rw [hforwarded]
        exact h.forwarded
  | arrived hw' =>
      subst hw'
      refine ⟨?_, fun _ => htaken, h.forwarded⟩
      show (w.arrived ++ [_]).Perm (w.taken ++ (w.pending ++ [_]))
      rw [← List.append_assoc]
      exact h.arrived.append_right _
  | polled hphase _ hw' =>
      subst hw'
      rw [hphase] at htaken
      exact ⟨h.arrived, fun _ => htaken, h.forwarded⟩
  | @took events sig hphase hmem hw' =>
      subst hw'
      refine ⟨?_, fun _ => ?_, h.forwarded⟩
      · show w.arrived.Perm (w.taken ++ [sig] ++ w.pending.erase sig)
        rw [List.append_assoc]
        exact h.arrived.trans ((List.perm_cons_erase hmem).append_left _)
      · show (w.taken ++ [sig]).filter (· ≠ .resize) = w.forwarded ++ [sig].filter (· ≠ .resize)
        rw [hphase] at htaken
        rw [List.filter_append, htaken]
        exact congrArg (· ++ _) (List.append_nil _)
  | @forwarded events sig hphase hsig hw' =>
      subst hw'
      refine ⟨h.arrived, fun _ => ?_, ?_⟩
      · rw [hphase, inHand_of_isForwarded hsig] at htaken
        exact htaken.trans (List.append_nil _).symm
      · intro sig' hmem
        rcases List.mem_append.mp hmem with hmem | hmem
        · exact h.forwarded sig' hmem
        · rw [List.mem_singleton.mp hmem]
          exact hsig

/-- Every signal that arrived has been read, SIGINT and SIGQUIT were forwarded, and no
    SIGTSTP came that did not detach. -/
structure Served (w : Attachment) : Prop where
  read : w.arrived.Perm w.taken
  forwarded : w.forwarded = w.taken.filter (·.isForwarded)
  detaches : TtySignal.stop ∉ w.arrived

/-- When nothing is pending in `poll`, all that arrived has been served. -/
theorem served_of_read {w : Attachment} (h : Accounted w) (hphase : w.phase = .polling)
    (hpending : w.pending = []) : Served w := by
  have hruns := runs_of_polling hphase
  have htaken := h.taken hruns
  rw [hphase] at htaken
  change _ = w.forwarded ++ [] at htaken
  rw [List.append_nil] at htaken
  have hread : w.arrived.Perm w.taken := by
    have := h.arrived
    rwa [hpending, List.append_nil] at this
  refine ⟨hread, ?_, fun hstop => ?_⟩
  · have hall : w.forwarded.filter (·.isForwarded) = w.forwarded :=
      List.filter_eq_self.mpr h.forwarded
    rw [← hall, ← htaken, List.filter_filter]
    refine List.filter_congr fun sig _ => ?_
    cases sig <;> rfl
  · have hmem : TtySignal.stop ∈ w.taken.filter (· ≠ .resize) :=
      List.mem_filter.mpr ⟨hread.mem_iff.mp hstop, by decide⟩
    rw [htaken] at hmem
    exact Bool.false_ne_true (h.forwarded _ hmem)

/-! ## What the loop leaves unread in `poll` -/

/-- Each signal that is left unread has a readiness event to come, and once `poll` has
    returned, all are served without a further signal. -/
structure NothingUnread (w : Attachment) : Prop where
  covered : w.pending.length ≤ if w.edge then 1 else 0
  served : ∀ ls w', Run AttachmentStep w ls w' → (∃ events, .polled events ∈ ls) →
    (∀ l ∈ ls, isArrival l = false) → w'.phase = .polling → Served w'

/-- In `poll` only the outstanding event is due. -/
theorem due_polling {w : Attachment} (h : w.phase = .polling) :
    due w = if w.edge then 1 else 0 := by
  rw [due, h]
  rfl

/-- Once `poll` has returned no event is outstanding, until a signal arrives. -/
theorem edge_of_polled {w w' : Attachment} {ls : List AttachmentMove}
    (hrun : Run AttachmentStep w ls w') (h : due w ≤ w.pending.length)
    (hpolled : ∃ events, .polled events ∈ ls) (hls : ∀ l ∈ ls, isArrival l = false) :
    w'.edge = false := by
  obtain ⟨events, hmem⟩ := hpolled
  obtain ⟨pre, post, w₁, w₂, heq, hpre, hst, hpost⟩ := hrun.step_of_mem hmem
  have hedge₂ : w₂.edge = false := by
    cases hst with
    | polled hphase hpolls =>
        have hle := due_le hpre (runs_of_step (.polled hphase hpolls)) h
        rw [due_polling hphase] at hle
        show (w₁.edge && decide (Token.signalArrived ∉ events)) = false
        cases hedge : w₁.edge with
        | false => rfl
        | true =>
            have hne : w₁.pending ≠ [] := by
              intro hnil
              rw [hedge, hnil] at hle
              exact absurd hle (by decide)
            exact decide_eq_false (not_not_intro (hpolls.signal.mpr ⟨hedge, hne⟩))
  refine hpost.invariant_of (I := fun w => w.edge = false) (fun hl hedge hstep => ?_)
    (fun l hl => hls l (heq ▸ List.mem_append_right _ (List.mem_cons_of_mem _ hl))) hedge₂
  cases step_change hstep with
  | same _ _ hsame => exact hsame.trans hedge
  | arrived => cases hl
  | polled _ _ hw' =>
      subst hw'
      exact (congrArg (· && _) hedge).trans (Bool.false_and _)
  | took _ _ hw' | forwarded _ _ hw' =>
      subst hw'
      exact hedge

/-- Without arrivals each event takes one signal off. -/
theorem pending_eq_due_of_quiet {w w' : Attachment} {ls : List AttachmentMove}
    (hrun : Run AttachmentStep w ls w') (hruns : w'.Runs) (h : w.pending.length = due w)
    (hls : ∀ l ∈ ls, isArrival l = false) : w'.pending.length = due w' := by
  have halone : Run (Where AttachmentStep Alone) w ls w' :=
    hrun.where_of (fun hl harrival => absurd (hl.symm.trans harrival) Bool.false_ne_true) hls
  exact pending_eq_due halone hruns h

/-- A pending signal whose event is outstanding is an event by itself. -/
theorem polls_signal {w : Attachment} (hedge : w.edge = true) (hpending : w.pending ≠ []) :
    w.Polls [.signalArrived] where
  some := List.cons_ne_nil _ _
  once := List.nodup_singleton _
  signal := iff_of_true List.mem_cons_self ⟨hedge, hpending⟩

/-- **NO SIGNAL IS LEFT UNREAD IF EACH COMES ALONE**: whenever the loop is in `poll`, every
    signal that is left unread has its readiness event to come, exactly in the runs in
    which no signal came while an event was outstanding. -/
theorem nothing_unread_iff {ls : List AttachmentMove} {w : Attachment}
    (hrun : Run AttachmentStep .start ls w) (hphase : w.phase = .polling) :
    NothingUnread w ↔ Run (Where AttachmentStep Alone) .start ls w := by
  have hruns := runs_of_polling hphase
  constructor
  · intro h
    refine alone_of_pending_le_due hrun hruns (Nat.le_refl 0) ?_
    rw [due_polling hphase]
    exact h.covered
  · intro halone
    have heq := pending_eq_due halone hruns rfl
    refine ⟨(due_polling hphase ▸ heq).le, fun ls' w' hrun' hpolled hls hphase' => ?_⟩
    have hruns' := runs_of_polling hphase'
    have heq' := pending_eq_due_of_quiet hrun' hruns' heq hls
    rw [due_polling hphase', edge_of_polled hrun' heq.ge hpolled hls] at heq'
    exact served_of_read ((hrun.append hrun').invariant accounted_step accounted_start) hphase'
      (List.eq_nil_of_length_eq_zero heq')

/-- From a signal without an event on, some signal is unread until a further one arrives. -/
theorem unread_until_arrival {w w' : Attachment} {ls : List AttachmentMove}
    (hphase : w.phase = .polling) (h : ¬w.pending.length ≤ if w.edge then 1 else 0)
    (hrun : Run AttachmentStep w ls w') (hruns : w'.Runs) : w'.pending ≠ [] := by
  intro hnil
  have hmono := without_event_mono hrun hruns
  rw [hnil, due_polling hphase, List.length_nil] at hmono
  omega

/-- One SIGINT comes, and it is forwarded. -/
theorem nothing_unread_iff_interrupt :
    ∃ ls w, Run AttachmentStep .start ls w ∧ w.phase = .polling ∧ w.forwarded = [.interrupt]
      ∧ NothingUnread w := by
  have hrun : ∃ w, Run (Where AttachmentStep Alone) .start [.synced, .arrived .interrupt,
      .polled [.signalArrived], .took .interrupt, .forwarded, .handled, .synced] w
      ∧ w.phase = .polling ∧ w.forwarded = [.interrupt] := by
    refine ⟨_, .cons ⟨.synced rfl, fun hl => ?_⟩ (.cons ⟨.arrived ?_ List.not_mem_nil, fun _ => rfl⟩
      (.cons ⟨.polled rfl ?_, fun hl => ?_⟩ (.cons ⟨.took rfl List.mem_cons_self, fun hl => ?_⟩
      (.cons ⟨.forwarded rfl rfl, fun hl => ?_⟩ (.cons ⟨.handled rfl, fun hl => ?_⟩
      (.single ⟨.synced rfl, fun hl => ?_⟩)))))), rfl, rfl⟩
    case refine_2 => exact fun result => Phase.noConfusion
    case refine_3 => exact polls_signal rfl (List.cons_ne_nil _ _)
    all_goals exact absurd hl Bool.false_ne_true
  obtain ⟨w, hrun, hphase, hforwarded⟩ := hrun
  exact ⟨_, w, hrun.of_where, hphase, hforwarded,
    (nothing_unread_iff hrun.of_where hphase).mpr hrun⟩

/-- SIGINT and then SIGTSTP come before `poll` returns: the second is left unread, with no
    event to come. -/
theorem second_signal_unread :
    (∃ ls w, Run AttachmentStep .start ls w ∧ w.phase = .polling ∧ w.pending = [.stop]
        ∧ w.edge = false)
      ∧ ¬∀ ls w, Run AttachmentStep .start ls w → w.phase = .polling → NothingUnread w := by
  have hrun : ∃ w, Run AttachmentStep .start [.synced, .arrived .interrupt, .arrived .stop,
      .polled [.signalArrived], .took .interrupt, .forwarded, .handled, .synced] w
      ∧ w.phase = .polling ∧ w.pending = [.stop] ∧ w.edge = false :=
    ⟨_, .cons (.synced rfl) (.cons (.arrived (fun _ => Phase.noConfusion) List.not_mem_nil)
      (.cons (.arrived (fun _ => Phase.noConfusion) (by decide))
      (.cons (.polled rfl (polls_signal rfl (List.cons_ne_nil _ _)))
      (.cons (.took rfl List.mem_cons_self) (.cons (.forwarded rfl rfl) (.cons (.handled rfl)
      (.single (.synced rfl)))))))), rfl, rfl, rfl⟩
  obtain ⟨w, hrun, hphase, hpending, hedge⟩ := hrun
  refine ⟨⟨_, w, hrun, hphase, hpending, hedge⟩, fun hall => ?_⟩
  have hle := (hall _ w hrun hphase).covered
  rw [hpending, hedge] at hle
  exact absurd hle (by decide)

end BeamTerminalSignals
