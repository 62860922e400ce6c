import BeamInit.Environment
import BeamInit.Channel
import BeamInit.Streaks

/-! # The liveness probe — when it asks for a restart, and when it gives up

    The task asks the service for its health over and over and counts the failures
    in a row.  Two limits are tested on the one counter: past the maximum of
    retries the task ends without a word to the manager, and at the threshold it
    sends one failure and ends. -/

namespace BeamLivenessProbe

open BeamApi BeamMainLoop BeamOperations BeamChannel Runs Streaks
open BeamEnvironment (usizeMax)

/-- A probe as it comes in: both limits are `usize` values. -/
structure UsizeProbe extends Probe where
  maxRetries_le : maxRetries ≤ usizeMax
  failureThreshold_le : failureThreshold ≤ usizeMax

/-- The probe of a command line that gives a port only. -/
def defaultProbe (port : Nat) : UsizeProbe where
  path := "/livez"
  port := port
  maxRetries := 1024
  initialDelay := 0
  period := 10 * 10 ^ 9
  failureThreshold := 3
  maxRetries_le := by decide
  failureThreshold_le := by decide

/-! ## The loop -/

/-- What a request comes to: the status of the response, or an error. -/
inductive Answer where
  | response (status : Nat)
  | error
deriving DecidableEq

/-- `StatusCode::is_success`. -/
def isSuccess (status : Nat) : Bool := 200 ≤ status && status < 300

def Answer.healthy : Answer → Bool
  | .response status => isSuccess status
  | .error => false

def Answer.failed (answer : Answer) : Bool := !answer.healthy

/-- What the task does, in order. -/
inductive Act where
  | slept (duration : Duration)
  | got (url : String) (timeout : Duration) (answer : Answer)
  | pushed (line : String)
  | sent (event : Event)
deriving DecidableEq

inductive Point where
  /-- At the request, with the value of `consecutive_failures`. -/
  | probing (consecutiveFailures : Nat)
  | returned
  /-- The addition to the counter has panicked. -/
  | overflowed
deriving DecidableEq

def url (probe : Probe) : String := "http://localhost:" ++ toString probe.port ++ probe.path

def failedLine (probe : Probe) (consecutiveFailures : Nat) : String :=
  "[liveness probe failed (" ++ toString consecutiveFailures ++ "/"
    ++ toString probe.failureThreshold ++ ")]"

def exceededLine (probe : Probe) : String :=
  "[liveness probe exceeded max retries (max_retries=" ++ toString probe.maxRetries ++ ")]"

def exhaustedLine : String := "[liveness probe exhausted. requesting restart]"

/-- The branch of a failure, from the raised counter on. -/
def countFailure (name : String) (probe : Probe) (consecutiveFailures : Nat) : List Act × Point :=
  if probe.maxRetries < consecutiveFailures then
    ([.pushed (failedLine probe consecutiveFailures), .pushed (exceededLine probe)], .returned)
  else if probe.failureThreshold ≤ consecutiveFailures then
    ([.pushed (failedLine probe consecutiveFailures), .pushed exhaustedLine,
      .sent (.probeFailed name)], .returned)
  else
    ([.pushed (failedLine probe consecutiveFailures), .slept probe.period],
      .probing consecutiveFailures)

/-- The loop body, from the answer to the next request. -/
def checkAnswer (name : String) (probe : Probe) (consecutiveFailures : Nat) (answer : Answer) :
    List Act × Point :=
  if answer.healthy then ([.slept probe.period], .probing 0)
  else if usizeMax ≤ consecutiveFailures then ([], .overflowed)
  else countFailure name probe (consecutiveFailures + 1)

/-- The acts of the task so far, and where it is. -/
structure Progress where
  acts : List Act
  point : Point
deriving DecidableEq

def Progress.step (name : String) (probe : Probe) (progress : Progress) (answer : Answer) :
    Progress :=
  match progress.point with
  | .probing consecutiveFailures =>
      ⟨progress.acts ++ .got (url probe) probe.period answer
          :: (checkAnswer name probe consecutiveFailures answer).1,
        (checkAnswer name probe consecutiveFailures answer).2⟩
  | .returned | .overflowed => progress

/-- `run_liveness_probe`, as far as the answers reach. -/
def runLivenessProbe (name : String) (probe : Probe) (answers : List Answer) : Progress :=
  answers.foldl (Progress.step name probe) ⟨[.slept probe.initialDelay], .probing 0⟩

def Act.answer? : Act → Option Answer
  | .got _ _ answer => some answer
  | _ => none

def Act.event? : Act → Option Event
  | .sent event => some event
  | _ => none

/-- The answers that were asked for. -/
def Progress.asked (progress : Progress) : List Answer := progress.acts.filterMap Act.answer?

/-- The events that were sent to the main loop. -/
def Progress.sent (progress : Progress) : List Event := progress.acts.filterMap Act.event?

/-- The lines and the events that end a task. -/
theorem events_of_end (lines : List String) (events : List Event) :
    (lines.map Act.pushed ++ events.map Act.sent).filterMap Act.event? = events := by
  have hpushed : Act.event? ∘ Act.pushed = fun _ => none := rfl
  have hsent : Act.event? ∘ Act.sent = some := rfl
  rw [List.filterMap_append, List.filterMap_map, List.filterMap_map, hpushed, hsent]
  simp

/-- What the task does at its end is no answer. -/
theorem answers_of_end (lines : List String) (events : List Event) :
    (lines.map Act.pushed ++ events.map Act.sent).filterMap Act.answer? = [] := by
  refine List.filterMap_eq_nil_iff.mpr fun act hmem => ?_
  rcases List.mem_append.mp hmem with hmem | hmem
  · obtain ⟨line, -, rfl⟩ := List.mem_map.mp hmem
    rfl
  · obtain ⟨event, -, rfl⟩ := List.mem_map.mp hmem
    rfl

/-! ## One answer -/

/-- One more answer is one more round of the loop. -/
theorem runLivenessProbe_concat (name : String) (probe : Probe) (answers : List Answer)
    (answer : Answer) :
    runLivenessProbe name probe (answers ++ [answer])
      = (runLivenessProbe name probe answers).step name probe answer := by
  rw [runLivenessProbe, runLivenessProbe, List.foldl_concat]

/-- A round makes the request, waits and checks the answer. -/
theorem step_probing {name : String} {probe : Probe} {progress : Progress} {answer : Answer}
    {consecutiveFailures : Nat} (h : progress.point = .probing consecutiveFailures) :
    progress.step name probe answer
      = ⟨progress.acts ++ .got (url probe) probe.period answer
          :: (checkAnswer name probe consecutiveFailures answer).1,
        (checkAnswer name probe consecutiveFailures answer).2⟩ := by
  rw [Progress.step, h]

/-- A task that has ended does nothing more. -/
theorem step_returned {name : String} {probe : Probe} {progress : Progress} {answer : Answer}
    (h : progress.point = .returned) : progress.step name probe answer = progress := by
  rw [Progress.step, h]

/-- Nothing happens after the task has returned. -/
theorem run_of_returned {name : String} {probe : Probe} {first answers : List Answer}
    (h : (runLivenessProbe name probe first).point = .returned) (hfirst : first <+: answers) :
    runLivenessProbe name probe answers = runLivenessProbe name probe first := by
  obtain ⟨later, rfl⟩ := hfirst
  induction later using List.reverseRecOn with
  | nil => rw [List.append_nil]
  | append_singleton later answer ih =>
      rw [← List.append_assoc, runLivenessProbe_concat, ih, step_returned h]

/-! ## The two limits -/

/-- The failures in a row that the task asks for a restart at. -/
def threshold (probe : Probe) : Nat := max 1 probe.failureThreshold

/-- The failures in a row that the task ends at. -/
def limit (probe : Probe) : Nat := min (threshold probe) (probe.maxRetries + 1)

/-- What the task has sent when it ends. -/
def report (name : String) (probe : Probe) : List Event :=
  if threshold probe ≤ probe.maxRetries then [.probeFailed name] else []

-- the third failure in a row restarts the service
example : limit (defaultProbe 8080).toProbe = 3
    ∧ report "web" (defaultProbe 8080).toProbe = [.probeFailed "web"] := by
  decide

/-- The task does not end before its first answer. -/
theorem limit_pos (probe : Probe) : 0 < limit probe := by
  rw [limit, threshold]
  omega

/-- The counter has room up to the limit, since the threshold is in range. -/
theorem limit_le_usizeMax (probe : UsizeProbe) : limit probe.toProbe ≤ usizeMax := by
  have hthreshold := probe.failureThreshold_le
  have hpos : 1 ≤ usizeMax := by decide
  rw [limit, threshold]
  omega

/-- An answer that is not healthy is a failure. -/
theorem failed_of_not_healthy {answer : Answer} (h : answer.healthy = false) :
    answer.failed = true := by
  rw [Answer.failed, h]
  rfl

/-- A failure below the limit is logged, and the task goes on. -/
theorem checkAnswer_below {name : String} {probe : UsizeProbe} {consecutiveFailures : Nat}
    {answer : Answer} (hfailed : answer.healthy = false)
    (hbelow : consecutiveFailures + 1 < limit probe.toProbe) :
    checkAnswer name probe.toProbe consecutiveFailures answer
      = ([.pushed (failedLine probe.toProbe (consecutiveFailures + 1)), .slept probe.period],
        .probing (consecutiveFailures + 1)) := by
  have hroom := limit_le_usizeMax probe
  rw [limit, threshold] at hbelow hroom
  rw [checkAnswer, hfailed, if_neg Bool.false_ne_true, if_neg (by omega), countFailure,
    if_neg (by omega), if_neg (by omega)]

/-- **The limit ends the task**, with a restart asked for if the threshold is not
    beyond the maximum of retries. -/
theorem checkAnswer_limit {name : String} {probe : UsizeProbe} {consecutiveFailures : Nat}
    {answer : Answer} (hfailed : answer.healthy = false)
    (hlimit : consecutiveFailures + 1 = limit probe.toProbe) :
    ∃ lines : List String, checkAnswer name probe.toProbe consecutiveFailures answer
      = (lines.map .pushed ++ (report name probe.toProbe).map .sent, .returned) := by
  have hroom := limit_le_usizeMax probe
  rw [limit, threshold] at hlimit hroom
  rw [checkAnswer, hfailed, if_neg Bool.false_ne_true, if_neg (by omega), countFailure, report,
    threshold]
  by_cases hreports : max 1 probe.failureThreshold ≤ probe.maxRetries
  · rw [if_pos hreports, if_neg (by omega), if_pos (by omega)]
    exact ⟨[_, _], rfl⟩
  · rw [if_neg hreports, if_pos (by omega)]
    exact ⟨[_, _], rfl⟩

/-! ## The invariant -/

/-- Where the task is after the answers: it counts the failures since the last
    success, or it has ended at the first streak that was long enough. -/
inductive Tracks (name : String) (probe : Probe) (answers : List Answer) (progress : Progress) : Prop
  | probing :
      NoStreak Answer.failed (limit probe) answers →
      progress.point = .probing (streak Answer.failed answers) →
      progress.asked = answers → progress.sent = [] → Tracks name probe answers progress
  | returned {first : List Answer} :
      first <+: answers → FirstStreak Answer.failed (limit probe) first →
      progress.point = .returned → progress.asked = first →
      progress.sent = report name probe → Tracks name probe answers progress

/-- At first there are no failures. -/
theorem tracks_start (name : String) (probe : Probe) :
    Tracks name probe [] (runLivenessProbe name probe []) :=
  .probing (noStreak_nil (limit_pos probe)) rfl rfl rfl

/-- **Every answer** keeps the count of the failures since the last success. -/
theorem tracks_step {name : String} {probe : UsizeProbe} {answers : List Answer}
    {progress : Progress} (answer : Answer) (h : Tracks name probe.toProbe answers progress) :
    Tracks name probe.toProbe (answers ++ [answer]) (progress.step name probe.toProbe answer) := by
  cases h with
  | returned hfirst hstreak hpoint hasked hsent =>
      rw [step_returned hpoint]
      exact .returned (hfirst.trans (List.prefix_append _ _)) hstreak hpoint hasked hsent
  | probing hno hpoint hasked hsent =>
      have hbelow := hno answers List.prefix_rfl
      rw [step_probing hpoint]
      -- the acts of this answer, after those before it
      have hasks : ∀ acts : List Act, acts.filterMap Act.answer? = [] →
          (progress.acts ++ .got (url probe.toProbe) probe.period answer :: acts).filterMap Act.answer?
            = answers ++ [answer] := by
        intro acts hacts
        rw [List.filterMap_append, ← Progress.asked, hasked,
          List.filterMap_cons_some (f := Act.answer?) rfl, hacts]
      have hsends : ∀ acts : List Act,
          (progress.acts ++ .got (url probe.toProbe) probe.period answer :: acts).filterMap Act.event?
            = acts.filterMap Act.event? := by
        intro acts
        rw [List.filterMap_append, ← Progress.sent, hsent, List.nil_append]
        rfl
      cases hhealthy : answer.healthy with
      | true =>
          have hzero : streak Answer.failed (answers ++ [answer]) = 0 :=
            streak_concat_neg _ (by rw [Answer.failed, hhealthy]; rfl)
          rw [checkAnswer, hhealthy, if_pos rfl]
          refine .probing (noStreak_concat.mpr ⟨hno, ?_⟩) ?_ (hasks _ rfl) (hsends _)
          · rw [hzero]
            exact limit_pos _
          · rw [hzero]
      | false =>
          have hsucc := streak_concat_pos answers (failed_of_not_healthy hhealthy)
          by_cases hnext : streak Answer.failed answers + 1 < limit probe.toProbe
          · rw [checkAnswer_below hhealthy hnext]
            refine .probing (noStreak_concat.mpr ⟨hno, ?_⟩) ?_ (hasks _ rfl) (hsends _)
            · rw [hsucc]
              exact hnext
            · rw [hsucc]
          · obtain ⟨lines, hcheck⟩ := @checkAnswer_limit name probe _ _ hhealthy
              (Nat.le_antisymm hbelow (Nat.le_of_not_lt hnext))
            rw [hcheck]
            refine .returned List.prefix_rfl (firstStreak_concat.mpr ⟨hno, ?_⟩) rfl
              (hasks _ (answers_of_end _ _)) ((hsends _).trans (events_of_end _ _))
            rw [hsucc]
            exact Nat.le_of_not_lt hnext

/-- **The invariant holds after any answers**. -/
theorem tracks_run (name : String) (probe : UsizeProbe) (answers : List Answer) :
    Tracks name probe.toProbe answers (runLivenessProbe name probe.toProbe answers) := by
  induction answers using List.reverseRecOn with
  | nil => exact tracks_start name probe.toProbe
  | append_singleton answers answer ih =>
      rw [runLivenessProbe_concat]
      exact tracks_step answer ih

/-! ## Where the task ends -/

section Ends

variable {name : String} {probe : UsizeProbe} {answers before first : List Answer} {answer : Answer}

/-- Without a streak that is long enough the task goes on, and has sent nothing. -/
theorem run_of_noStreak (h : NoStreak Answer.failed (limit probe.toProbe) answers) :
    (runLivenessProbe name probe.toProbe answers).point = .probing (streak Answer.failed answers)
      ∧ (runLivenessProbe name probe.toProbe answers).asked = answers
      ∧ (runLivenessProbe name probe.toProbe answers).sent = [] := by
  cases tracks_run name probe answers with
  | probing _ hpoint hasked hsent => exact ⟨hpoint, hasked, hsent⟩
  | returned hfirst hstreak _ _ _ => exact absurd h (hstreak.not_noStreak hfirst)

/-- A task that goes on has seen no such streak. -/
theorem noStreak_of_probing {consecutiveFailures : Nat}
    (h : (runLivenessProbe name probe.toProbe answers).point = .probing consecutiveFailures) :
    NoStreak Answer.failed (limit probe.toProbe) answers := by
  cases tracks_run name probe answers with
  | probing hno _ _ _ => exact hno
  | returned _ _ hpoint _ _ => exact nomatch hpoint.symm.trans h

/-- With the first such streak the task ends, and sends what it has to report. -/
theorem run_of_firstStreak (h : FirstStreak Answer.failed (limit probe.toProbe) first) :
    (runLivenessProbe name probe.toProbe first).point = .returned
      ∧ (runLivenessProbe name probe.toProbe first).asked = first
      ∧ (runLivenessProbe name probe.toProbe first).sent = report name probe.toProbe := by
  cases tracks_run name probe first with
  | probing hno _ _ _ => exact absurd hno (h.not_noStreak List.prefix_rfl)
  | @returned first' hfirst hstreak hpoint hasked hsent =>
      obtain rfl : first' = first := by
        by_contra hne
        exact Nat.not_le_of_lt (h.2 first' hfirst hne) hstreak.1
      exact ⟨hpoint, hasked, hsent⟩

/-- The answer is the last one the task asks for. -/
def StopsAt (name : String) (probe : Probe) (before : List Answer) (answer : Answer) : Prop :=
  (∃ consecutiveFailures,
      (runLivenessProbe name probe before).point = .probing consecutiveFailures)
    ∧ (runLivenessProbe name probe (before ++ [answer])).point = .returned

/-- The answer makes the task send its failure. -/
def SendsAt (name : String) (probe : Probe) (before : List Answer) (answer : Answer) : Prop :=
  (runLivenessProbe name probe before).sent = []
    ∧ (runLivenessProbe name probe (before ++ [answer])).sent = [.probeFailed name]

/-- The last answer the task asks for is the one that completes the first streak. -/
theorem stopsAt_iff :
    StopsAt name probe.toProbe before answer
      ↔ FirstStreak Answer.failed (limit probe.toProbe) (before ++ [answer]) := by
  constructor
  · rintro ⟨⟨consecutiveFailures, hbefore⟩, hreturned⟩
    refine (noStreak_of_probing hbefore).firstStreak fun hno => ?_
    have hpoint := (@run_of_noStreak name probe _ hno).1
    exact nomatch hpoint.symm.trans hreturned
  · intro h
    exact ⟨⟨_, (run_of_noStreak (firstStreak_concat.mp h).1).1⟩, (run_of_firstStreak h).1⟩

/-- A task that runs out of retries below the threshold never sends a failure. -/
theorem sent_of_gives_up (hlimits : probe.maxRetries < threshold probe.toProbe) :
    (runLivenessProbe name probe.toProbe answers).sent = [] := by
  cases tracks_run name probe answers with
  | probing _ _ _ hsent => exact hsent
  | returned _ _ _ _ hsent => rw [hsent, report, if_neg (Nat.not_le_of_lt hlimits)]

/-- A task with retries enough reports one failure. -/
theorem report_of_restarts (hlimits : threshold probe.toProbe ≤ probe.maxRetries) :
    report name probe.toProbe = [.probeFailed name] := by
  rw [report, if_pos hlimits]

/-- With the threshold in reach, sending is what ends the task. -/
theorem sendsAt_iff (hlimits : threshold probe.toProbe ≤ probe.maxRetries) :
    SendsAt name probe.toProbe before answer
      ↔ FirstStreak Answer.failed (limit probe.toProbe) (before ++ [answer]) := by
  constructor
  · rintro ⟨hbefore, hsent⟩
    cases tracks_run name probe before with
    | returned _ _ _ _ hreport =>
        rw [hbefore, report_of_restarts hlimits] at hreport
        exact nomatch hreport
    | probing hno _ _ _ =>
        refine hno.firstStreak fun hmore => ?_
        exact nomatch hsent.symm.trans (run_of_noStreak hmore).2.2
  · intro h
    exact ⟨(run_of_noStreak (firstStreak_concat.mp h).1).2.2,
      (run_of_firstStreak h).2.2.trans (report_of_restarts hlimits)⟩

/-- A task reports at most one failure. -/
theorem sent_le_one : (runLivenessProbe name probe.toProbe answers).sent.length ≤ 1 := by
  have hreport : (report name probe.toProbe).length ≤ 1 := by
    rw [report]
    split
    · exact Nat.le_refl 1
    · exact Nat.zero_le 1
  cases tracks_run name probe answers with
  | probing _ _ _ hsent =>
      rw [hsent]
      exact Nat.zero_le 1
  | returned _ _ _ _ hsent =>
      rw [hsent]
      exact hreport

/-- The counter never overflows. -/
theorem not_overflowed : (runLivenessProbe name probe.toProbe answers).point ≠ .overflowed := by
  intro hover
  cases tracks_run name probe answers with
  | probing _ hpoint _ _ => exact nomatch hpoint.symm.trans hover
  | returned _ _ hpoint _ _ => exact nomatch hpoint.symm.trans hover

/-- A success is counted as no failure in a row. -/
theorem restarts_count {consecutiveFailures : Nat} (hhealthy : answer.healthy = true)
    (h : (runLivenessProbe name probe.toProbe before).point = .probing consecutiveFailures) :
    (runLivenessProbe name probe.toProbe (before ++ [answer])).point = .probing 0 := by
  rw [runLivenessProbe_concat, step_probing h, checkAnswer, if_pos hhealthy]

end Ends

/-- **A RESTART IS ASKED FOR AT THE FIRST STREAK OF FAILURES** that is as long as the
    threshold, and at most once.  If the maximum of retries is below it, the task
    ends without asking at the first streak beyond that maximum.  Until then it goes
    on probing, over answers that end or do not; a success restarts the count, which
    stays in range. -/
theorem restart_at_first_streak (name : String) (probe : UsizeProbe) :
    (∀ answers, (runLivenessProbe name probe.toProbe answers).sent.length ≤ 1
        ∧ (runLivenessProbe name probe.toProbe answers).point ≠ .overflowed)
      ∧ (max 1 probe.failureThreshold ≤ probe.maxRetries → ∀ before answer,
        (SendsAt name probe.toProbe before answer
            ↔ FirstStreak Answer.failed (max 1 probe.failureThreshold) (before ++ [answer]))
          ∧ (StopsAt name probe.toProbe before answer ↔ SendsAt name probe.toProbe before answer))
      ∧ (probe.maxRetries < max 1 probe.failureThreshold →
        (∀ answers, (runLivenessProbe name probe.toProbe answers).sent = [])
          ∧ ∀ before answer, StopsAt name probe.toProbe before answer
            ↔ FirstStreak Answer.failed (probe.maxRetries + 1) (before ++ [answer]))
      ∧ (∀ answers,
        (∀ before answer, before ++ [answer] <+: answers →
            ¬ StopsAt name probe.toProbe before answer) →
          (runLivenessProbe name probe.toProbe answers).asked = answers
            ∧ (runLivenessProbe name probe.toProbe answers).point
              = .probing (streak Answer.failed answers))
      ∧ (∀ before answer consecutiveFailures,
        (runLivenessProbe name probe.toProbe before).point = .probing consecutiveFailures →
        answer.healthy = true →
        (runLivenessProbe name probe.toProbe (before ++ [answer])).point = .probing 0)
      ∧ ∀ answers : Stream' Answer,
        (∃ n, StopsAt name probe.toProbe (answers.take n) (answers.get n)
            ∧ ∀ later, n < later → runLivenessProbe name probe.toProbe (answers.take later)
              = runLivenessProbe name probe.toProbe (answers.take (n + 1)))
          ∨ ∀ n, (runLivenessProbe name probe.toProbe (answers.take n)).asked = answers.take n
            ∧ (runLivenessProbe name probe.toProbe (answers.take n)).sent = [] := by
  refine ⟨fun answers => ⟨sent_le_one, not_overflowed⟩, fun hreach before answer => ?_,
    fun hlimits => ⟨fun answers => sent_of_gives_up hlimits, fun before answer => ?_⟩,
    fun answers hgoes => ?_, fun before answer _ hprobing hhealthy => restarts_count hhealthy hprobing,
    fun answers => ?_⟩
  · have hlimit : limit probe.toProbe = max 1 probe.failureThreshold :=
      Nat.min_eq_left (Nat.le_succ_of_le hreach)
    rw [stopsAt_iff, sendsAt_iff hreach, hlimit]
    exact ⟨Iff.rfl, Iff.rfl⟩
  · have hlimit : limit probe.toProbe = probe.maxRetries + 1 := Nat.min_eq_right hlimits
    rw [stopsAt_iff, hlimit]
  · have hno : NoStreak Answer.failed (limit probe.toProbe) answers := by
      by_contra hlong
      obtain ⟨first, hfirst, hstreak⟩ := exists_firstStreak hlong
      cases first using List.reverseRecOn with
      | nil => exact Nat.not_le_of_lt (limit_pos probe.toProbe) hstreak.1
      | append_singleton before answer => exact hgoes before answer hfirst (stopsAt_iff.mpr hstreak)
    exact ⟨(run_of_noStreak hno).2.1, (run_of_noStreak hno).1⟩
  · rcases firstStreak_or_noStreak Answer.failed (limit probe.toProbe) answers with ⟨n, hstreak⟩ | hno
    · cases n with
      | zero => exact absurd hstreak.1 (Nat.not_le_of_lt (limit_pos probe.toProbe))
      | succ n =>
          refine .inl ⟨n, ?_, fun later hlater => ?_⟩
          · rw [stopsAt_iff, ← Stream'.take_succ']
            exact hstreak
          · exact run_of_returned (run_of_firstStreak hstreak).1
              (Stream'.take_prefix_take_left _ _ _ hlater)
    · exact .inr fun n => ⟨(run_of_noStreak (hno n)).2.1, (run_of_noStreak (hno n)).2.2⟩

/-- With the defaults of the command line, the third failure in a row asks for a restart. -/
example : (runLivenessProbe "web" ⟨"/livez", 8080, 1024, 0, 10000000000, 3⟩
      [.error, .error, .response 200, .error, .error, .error, .error]).sent
    = [.probeFailed "web"] := by decide

/-- With more failures allowed than retries, the second failure ends the task. -/
example : (runLivenessProbe "web" ⟨"/livez", 8081, 1, 1000000000, 1000000000, 3⟩
      [.response 200, .response 500, .error, .response 500]).asked
    = [.response 200, .response 500, .error] := by decide

/-! ## The task on the channel -/

/-- What the system sees of an act. -/
def Act.move? (task : ProbeTask) : Act → Option SysMove
  | .pushed line => some (.logged task.name line)
  | .sent _ => some (.probeSent task)
  | .slept _ | .got _ _ _ => none

/-- The moves of the task; to return without sending is one of them. -/
def Progress.moves (task : ProbeTask) (progress : Progress) : List SysMove :=
  progress.acts.filterMap (Act.move? task)
    ++ if progress.point = .returned ∧ progress.sent = [] then [.probeEnded task] else []

/-- An answer is followed by lines of log, and by at most one event after them. -/
theorem moves_checkAnswer (task : ProbeTask) (name : String) (probe : Probe)
    (consecutiveFailures : Nat) (answer : Answer) :
    ∃ lines : List String,
      (checkAnswer name probe consecutiveFailures answer).1.filterMap (Act.move? task)
        = lines.map (.logged task.name)
          ++ ((checkAnswer name probe consecutiveFailures answer).1.filterMap Act.event?).map
            (fun _ => .probeSent task) := by
  rw [checkAnswer, countFailure]
  split_ifs
  · exact ⟨[], rfl⟩
  · exact ⟨[], rfl⟩
  · exact ⟨[_, _], rfl⟩
  · exact ⟨[_, _], rfl⟩
  · exact ⟨[_], rfl⟩

/-- In the system the task logs its lines and then sends what it reports. -/
theorem moves_run (task : ProbeTask) (name : String) (probe : UsizeProbe) (answers : List Answer) :
    ∃ lines : List String,
      (runLivenessProbe name probe.toProbe answers).acts.filterMap (Act.move? task)
        = lines.map (.logged task.name)
          ++ (runLivenessProbe name probe.toProbe answers).sent.map (fun _ => .probeSent task) := by
  induction answers using List.reverseRecOn with
  | nil => exact ⟨[], rfl⟩
  | append_singleton answers answer ih =>
      obtain ⟨lines, hmoves⟩ := ih
      rw [runLivenessProbe_concat]
      cases tracks_run name probe answers with
      | returned _ _ hpoint _ _ =>
          rw [step_returned hpoint]
          exact ⟨lines, hmoves⟩
      | probing _ hpoint _ hsent =>
          obtain ⟨more, hmore⟩ := moves_checkAnswer task name probe.toProbe
            (streak Answer.failed answers) answer
          rw [hsent, List.map_nil, List.append_nil] at hmoves
          refine ⟨lines ++ more, ?_⟩
          rw [step_probing hpoint, Progress.sent, List.filterMap_append, List.filterMap_append, hmoves,
            ← Progress.sent, hsent, List.map_append, List.append_assoc]
          exact congrArg _ hmore

/-- Lines of log change nothing but the log. -/
theorem run_logged {sys : System} {name : String} {service : BeamService.Service} (lines : List String)
    (hget : sys.machine.get? name = some service) :
    ∃ sys' service', Run SysStep sys (lines.map (.logged name)) sys'
      ∧ sys'.machine.get? name = some service' ∧ sys'.tasks = sys.tasks
      ∧ sys'.queue = sys.queue := by
  induction lines generalizing sys service with
  | nil => exact ⟨sys, service, .nil sys, hget, rfl, rfl⟩
  | cons line lines ih =>
      have hstep : SysStep sys (.logged name line) { sys with machine := _ } := .logged (.logged hget)
      obtain ⟨sys', service', hrun, hget', htasks, hqueue⟩ :=
        @ih { sys with machine := _ } _ get?_put_self
      exact ⟨sys', service', .cons hstep hrun, hget', htasks, hqueue⟩

/-- **What the system lets a probe task do is what this task does**: it logs, and it
    ends by sending one failure or none. -/
theorem task_moves {sys : System} {task : ProbeTask} {service : BeamService.Service}
    (htask : task ∈ sys.tasks.probes) (hget : sys.machine.get? task.name = some service)
    (hroom : sys.queue.length < capacity) (probe : UsizeProbe) (answers : List Answer) :
    ∃ sys', Run SysStep sys ((runLivenessProbe task.name probe.toProbe answers).moves task) sys'
      ∧ sys'.queue = sys.queue
          ++ (runLivenessProbe task.name probe.toProbe answers).sent.map (fun _ => .probeFailed task)
      ∧ sys'.tasks.probes
        = if (runLivenessProbe task.name probe.toProbe answers).point = .returned
          then sys.tasks.probes.erase task else sys.tasks.probes := by
  obtain ⟨lines, hmoves⟩ := moves_run task task.name probe answers
  obtain ⟨sys', _, hrun, -, htasks, hqueue⟩ := run_logged lines hget
  rw [← htasks] at htask
  rw [← hqueue] at hroom
  rw [Progress.moves, hmoves]
  cases tracks_run task.name probe answers with
  | probing _ hpoint _ hsent =>
      have hgoes : Point.probing (streak Answer.failed answers) ≠ .returned := nofun
      rw [hpoint, hsent, if_neg (fun h => hgoes h.1), if_neg hgoes]
      simp only [List.map_nil, List.append_nil]
      exact ⟨sys', hrun, hqueue, by rw [htasks]⟩
  | returned _ _ hpoint _ hsent =>
      rw [hpoint, hsent, report, if_pos rfl, ← htasks, ← hqueue]
      by_cases hreach : threshold probe.toProbe ≤ probe.maxRetries
      · rw [if_pos hreach, if_neg (fun h => List.cons_ne_nil _ _ h.2), List.append_nil]
        exact ⟨_, hrun.snoc (.probeSent htask hroom), rfl, rfl⟩
      · rw [if_neg hreach, if_pos ⟨rfl, rfl⟩]
        simp only [List.map_nil, List.append_nil]
        exact ⟨_, hrun.snoc (.probeEnded htask), rfl, rfl⟩

end BeamLivenessProbe
