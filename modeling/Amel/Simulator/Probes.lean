import Amel.Simulator.Stall

namespace Amel

open Transition

/-- An error as the client library gives it: its text, and its `fatal()`. -/
structure KafkaError where
  text : ErrorText
  fatal : Bool

/-- `ProducerHealth`, less the two errors the runner's liveness reads. -/
structure ProducerHealth where
  deliveryFailures : Nat := 0
  lastDeliveryError : Option ErrorText := none
  lastDeliveryErrorAt : Option ℚ := none
  lastDeliveryOkAt : Option ℚ := none

/-- A delivery report, with the clock as `record_delivery` read it. -/
structure DeliveryReport where
  time : ℚ
  error : Option KafkaError

def DeliveryReport.failed (report : DeliveryReport) : Bool := report.error.isSome

/-- A runner with all its probes read. The reports so far, the newest first,
and the time passed unpaused since the last progress or resumption are there
for the statements: no probe reads them. -/
structure SimulatorProbes where
  runner : SimulatorRunner
  readinessErrorWindowSeconds : ℚ
  health : ProducerHealth := {}
  eventsDropped : Nat := 0
  reports : List DeliveryReport := []
  unpausedSeconds : ℚ := 0

inductive ProbesEvent
  | report (error : Option KafkaError)
  | publishFailed (error : KafkaError)
  | runner (action : RunnerAction)

/-- What `readiness` finds, in the order of its checks. -/
inductive SimulatorReadiness
  | notLive (found : SimulatorLiveness)
  | datasetMissing
  | deliveryFailing (error : Option ErrorText)
  | ready

def SimulatorReadiness.answer : SimulatorReadiness → Bool × String
  | notLive found => (false, found.answer.2)
  | datasetMissing => (false, "dataset not yet available")
  | deliveryFailing error => (false, "kafka delivery failing: " ++ (error.elim "None" fun text => text.1))
  | ready => (true, "ready")

/-- The time unpaused after an action of the runner. -/
def unpausedAfter (runner : SimulatorRunner) (unpaused : ℚ) : RunnerAction → ℚ
  | .takeRow _ | .resume => 0
  | .passes seconds => if runner.paused then unpaused else unpaused + seconds
  | _ => unpaused

/-- The `if _is_fatal(err)` of both records: a fatal error is kept, any other is not. -/
def SimulatorRunner.recordFatal (runner : SimulatorRunner) (error : KafkaError) : SimulatorRunner :=
  if error.fatal then { runner with fatalError := some error.text } else runner

namespace ProbesEvent

/-- A fatal error, or an exception that ends the loop. -/
def Breaks : ProbesEvent → Prop
  | report error => ∃ fatal, error = some fatal ∧ fatal.fatal = true
  | publishFailed error => error.fatal = true
  | runner action => ∃ error, action = .ends (some error)

/-- A delivery, or an error that is not fatal. -/
def Transient : ProbesEvent → Prop
  | report error => ∀ failure, error = some failure → failure.fatal = false
  | publishFailed error => error.fatal = false
  | runner _ => False

/-- What a paused loop leaves to happen: deliveries, errors that are not fatal, time. -/
def Idle (event : ProbesEvent) : Prop :=
  event.Transient ∨ event = runner .pause ∨ ∃ seconds, event = runner (.passes seconds)

end ProbesEvent

namespace SimulatorProbes

def initial (settings : SimulatorSettings) (window now : ℚ) : SimulatorProbes where
  runner := SimulatorRunner.initial settings now
  readinessErrorWindowSeconds := window

/-- `liveness`. -/
def liveness (s : SimulatorProbes) : Bool × String := s.runner.liveness.answer

/-- `readiness`, from the answer of `liveness` on. -/
def readinessFound (s : SimulatorProbes) : SimulatorReadiness :=
  if s.liveness.1 = false then .notLive s.runner.liveness
  else if s.runner.readySet = false then .datasetMissing
  else match s.health.lastDeliveryErrorAt with
    | none => .ready
    | some errorAt =>
      let recovered := s.health.lastDeliveryOkAt.any fun okAt => errorAt < okAt
      let expired := decide (s.readinessErrorWindowSeconds < s.runner.monotonic - errorAt)
      if recovered || expired then .ready else .deliveryFailing s.health.lastDeliveryError

def readiness (s : SimulatorProbes) : Bool × String := s.readinessFound.answer

/-- `record_delivery`. -/
def recordDelivery (s : SimulatorProbes) : Option KafkaError → SimulatorProbes
  | none => { s with health := { s.health with lastDeliveryOkAt := some s.runner.monotonic } }
  | some error =>
    { s with
      runner := s.runner.recordFatal error
      health :=
        { s.health with
          deliveryFailures := s.health.deliveryFailures + 1
          lastDeliveryError := some error.text
          lastDeliveryErrorAt := some s.runner.monotonic } }

/-- `_on_publish_error`: whether the loop has to stop. -/
def onPublishError (s : SimulatorProbes) (error : KafkaError) : SimulatorProbes × Bool :=
  ({ s with eventsDropped := s.eventsDropped + 1, runner := s.runner.recordFatal error }, error.fatal)

/-- Reports read the clock later and later. The runner's own actions are
those of its loop, its callers and the clock: its fatal errors come from
the reports and from the failed calls. -/
inductive Step : SimulatorProbes → ProbesEvent → SimulatorProbes → Prop
  | report {s error} : (∀ earlier ∈ s.reports, earlier.time < s.runner.monotonic) →
      Step s (.report error) { s.recordDelivery error with reports := ⟨s.runner.monotonic, error⟩ :: s.reports }
  | publishFailed {s error} : Step s (.publishFailed error) (s.onPublishError error).1
  | runner {s action after} : s.runner.Step action after → (∀ error, action ≠ .deliveryFatal error) →
      Step s (.runner action)
        { s with runner := after, unpausedSeconds := unpausedAfter s.runner s.unpausedSeconds action }

/-- No delivery error was reported, or a delivery was reported after the
last one, or the window has passed since it. -/
def Accepting (s : SimulatorProbes) : Prop :=
  (∀ report ∈ s.reports, report.failed = false) ∨
    ∃ later failure earlier, s.reports = later ++ failure :: earlier ∧ failure.failed = true ∧
      (∀ report ∈ later, report.failed = false) ∧
      (later ≠ [] ∨ s.readinessErrorWindowSeconds < s.runner.monotonic - failure.time)

variable {s after later : SimulatorProbes} {event : ProbesEvent} {settings : SimulatorSettings} {window now : ℚ}

/-- A fatal error is on record, or the exception that ended the loop. -/
def Broken (s : SimulatorProbes) : Prop :=
  s.runner.fatalError ≠ none ∨ s.runner.loopError ≠ none ∧ s.runner.phase = .ended

theorem Broken.not_live (broken : s.Broken) : s.liveness.1 = false := by
  unfold liveness SimulatorRunner.liveness
  cases fatal : s.runner.fatalError with
  | some error => rfl
  | none =>
    cases died : s.runner.loopError with
    | some error => rfl
    | none =>
      rcases broken with found | ⟨found, _⟩
      · exact absurd fatal found
      · exact absurd died found

theorem Broken.recordFatal (broken : s.Broken) (error : KafkaError) {after : SimulatorProbes}
    (records : after.runner = s.runner.recordFatal error) : after.Broken := by
  rw [Broken, records, SimulatorRunner.recordFatal]
  split
  · exact Or.inl (Option.some_ne_none _)
  · exact broken

theorem Broken.step (broken : s.Broken) (taken : s.Step event after) : after.Broken := by
  cases taken with
  | @report error _ =>
    cases error with
    | none => exact broken
    | some error => exact broken.recordFatal error rfl
  | @publishFailed error => exact broken.recordFatal error rfl
  | runner taken _ =>
    rcases broken with fatal | ⟨died, ended⟩
    · cases taken with
      | deliveryFatal => exact Or.inl (Option.some_ne_none _)
      | _ => exact Or.inl fatal
    · cases taken with
      | start waits => exact absurd (ended.symm.trans waits) (by rintro ⟨⟩)
      | downloaded busy => exact absurd (ended.symm.trans busy) (by rintro ⟨⟩)
      | takeRow busy => exact absurd (ended.symm.trans busy) (by rintro ⟨⟩)
      | ends runs =>
        rw [SimulatorRunner.loopRuns, ended] at runs
        cases runs
      | _ => exact Or.inr ⟨died, ended⟩

theorem broken_of_breaks (taken : s.Step event after) (breaks : event.Breaks) : after.Broken := by
  cases taken with
  | report =>
    obtain ⟨error, rfl, fatal⟩ := breaks
    exact Or.inl (by simp [recordDelivery, SimulatorRunner.recordFatal, fatal])
  | @publishFailed error =>
    have fatal : error.fatal = true := breaks
    exact Or.inl (by simp [onPublishError, SimulatorRunner.recordFatal, fatal])
  | runner taken _ =>
    obtain ⟨error, rfl⟩ := breaks
    cases taken
    exact Or.inr ⟨Option.some_ne_none _, rfl⟩

/-- What is not fatal leaves the runner as it is. -/
theorem runner_of_transient (taken : s.Step event after) (transient : event.Transient) : after.runner = s.runner := by
  have mild {error : KafkaError} (notFatal : error.fatal = false) : s.runner.recordFatal error = s.runner := by
    simp only [SimulatorRunner.recordFatal, notFatal, Bool.false_eq_true, if_false]
  cases taken with
  | @report error _ =>
    cases error with
    | none => rfl
    | some error => exact mild (transient error rfl)
  | publishFailed => exact mild transient
  | runner => exact transient.elim

/-- The liveness of a paused simulator does not look at the clock. -/
theorem liveness_passes {runner : SimulatorRunner} (paused : runner.paused = true) (clock : ℚ) :
    SimulatorRunner.liveness { runner with monotonic := clock } = runner.liveness := by
  simp only [SimulatorRunner.liveness, paused, not_true_eq_false, false_and, and_false, if_false,
    SimulatorRunner.threadStarted, SimulatorRunner.loopRuns]

theorem idle_step (paused : s.runner.paused = true) (taken : s.Step event after) (idle : event.Idle) :
    after.runner.paused = true ∧ after.liveness = s.liveness := by
  rcases idle with transient | rfl | ⟨seconds, rfl⟩
  · rw [liveness, runner_of_transient taken transient]
    exact ⟨paused, rfl⟩
  · cases taken with
    | runner taken _ =>
      cases taken
      have same : { s.runner with paused := true } = s.runner := by rw [← paused]
      rw [liveness]
      dsimp only
      rw [same]
      exact ⟨rfl, rfl⟩
  · cases taken with
    | runner taken _ =>
      cases taken
      exact ⟨paused, congrArg SimulatorLiveness.answer (liveness_passes paused _)⟩

/-- What the statements keep count of is what the probes read. -/
structure Recorded (s : SimulatorProbes) : Prop where
  times : s.reports.Pairwise fun newer older => older.time < newer.time
  past : ∀ report ∈ s.reports, report.time ≤ s.runner.monotonic
  errorAt : s.health.lastDeliveryErrorAt = (s.reports.find? (·.failed)).map (·.time)
  okAt : s.health.lastDeliveryOkAt = (s.reports.find? (!·.failed)).map (·.time)
  unpaused : s.runner.stopSet = false → s.runner.paused = false →
    s.runner.monotonic - s.runner.lastProgressAt = s.unpausedSeconds

/-- A step of the runner keeps the count of the time unpaused and moves the clock forward. -/
theorem runner_step {runner next : SimulatorRunner} {action : RunnerAction} {unpaused : ℚ}
    (counts : runner.stopSet = false → runner.paused = false → runner.monotonic - runner.lastProgressAt = unpaused)
    (taken : runner.Step action next) :
    runner.monotonic ≤ next.monotonic ∧ (next.stopSet = false → next.paused = false →
      next.monotonic - next.lastProgressAt = unpausedAfter runner unpaused action) := by
  cases taken with
  | takeRow | resume => exact ⟨le_rfl, fun _ _ => sub_self _⟩
  | pause => exact ⟨le_rfl, fun _ running => (by cases running)⟩
  | stop => exact ⟨le_rfl, fun going => (by cases going)⟩
  | @passes seconds _ =>
    have nonneg : (0 : ℚ) ≤ seconds := seconds.2
    refine ⟨by dsimp only; linarith, fun going running => ?_⟩
    have before := counts going running
    change runner.paused = false at running
    simp only [unpausedAfter, running, Bool.false_eq_true, if_false]
    linarith
  | _ => exact ⟨le_rfl, counts⟩

/-- Recording a fatal error touches neither the clock nor what the loop does. -/
theorem recordFatal_unchanged (runner : SimulatorRunner) (error : KafkaError) :
    (runner.recordFatal error).monotonic = runner.monotonic ∧ (runner.recordFatal error).stopSet = runner.stopSet ∧
      (runner.recordFatal error).paused = runner.paused ∧
      (runner.recordFatal error).lastProgressAt = runner.lastProgressAt := by
  unfold SimulatorRunner.recordFatal
  split
  · exact ⟨rfl, rfl, rfl, rfl⟩
  · exact ⟨rfl, rfl, rfl, rfl⟩

theorem Recorded.recordFatal {runner : SimulatorRunner} {error : KafkaError} {health : ProducerHealth}
    {reports : List DeliveryReport} {dropped : Nat}
    (recorded : { s with health := health, reports := reports, eventsDropped := dropped, runner := runner }.Recorded) :
    { s with health := health, reports := reports, eventsDropped := dropped,
             runner := runner.recordFatal error }.Recorded := by
  obtain ⟨clock, stop, paused, progress⟩ := recordFatal_unchanged runner error
  refine ⟨recorded.times, ?_, recorded.errorAt, recorded.okAt, ?_⟩
  · dsimp only
    rw [clock]
    exact recorded.past
  · dsimp only
    rw [clock, stop, paused, progress]
    exact recorded.unpaused

theorem Recorded.step (recorded : s.Recorded) (taken : s.Step event after) : after.Recorded := by
  cases taken with
  | @report error newest =>
    have times : (⟨s.runner.monotonic, error⟩ :: s.reports).Pairwise fun newer older => older.time < newer.time :=
      List.pairwise_cons.mpr ⟨newest, recorded.times⟩
    have past : ∀ report ∈ (⟨s.runner.monotonic, error⟩ :: s.reports : List DeliveryReport),
        report.time ≤ s.runner.monotonic := by
      intro report known
      rcases List.mem_cons.mp known with rfl | known
      · exact le_rfl
      · exact recorded.past report known
    cases error with
    | none => exact ⟨times, past, recorded.errorAt, rfl, recorded.unpaused⟩
    | some error => exact Recorded.recordFatal ⟨times, past, rfl, recorded.okAt, recorded.unpaused⟩
  | publishFailed =>
    exact Recorded.recordFatal
      ⟨recorded.times, recorded.past, recorded.errorAt, recorded.okAt, recorded.unpaused⟩
  | runner taken _ =>
    obtain ⟨forward, unpaused⟩ := runner_step recorded.unpaused taken
    exact ⟨recorded.times, fun report known => (recorded.past report known).trans forward, recorded.errorAt,
      recorded.okAt, unpaused⟩

/-- The newest failure, where every report after it is a delivery. -/
theorem find_failed {later : List DeliveryReport} {failure : DeliveryReport} (failed : failure.failed = true)
    (delivered : ∀ report ∈ later, report.failed = false) (earlier : List DeliveryReport) :
    (later ++ failure :: earlier).find? (·.failed) = some failure :=
  List.find?_eq_some_iff_append.mpr
    ⟨failed, later, earlier, rfl, fun report known => by simp [delivered report known]⟩

/-- With the newest failure found, the newest delivery comes after it
exactly when there is one among the later reports. -/
theorem delivered_since {later earlier : List DeliveryReport} {failure : DeliveryReport}
    (times : (later ++ failure :: earlier).Pairwise fun newer older => older.time < newer.time)
    (failed : failure.failed = true) (delivered : ∀ report ∈ later, report.failed = false) :
    ((((later ++ failure :: earlier).find? (!·.failed)).map (·.time)).any fun okAt => failure.time < okAt) = true ↔
      later ≠ [] := by
  cases later with
  | cons newest rest =>
    have success := delivered newest List.mem_cons_self
    have after := (List.pairwise_cons.mp times).1 failure (by simp)
    simp [success, after]
  | nil =>
    have older := (List.pairwise_cons.mp times).1
    simp only [List.nil_append, List.find?_cons, failed, Bool.not_true, ne_eq, not_true_eq_false, iff_false]
    cases found : earlier.find? (!·.failed) with
    | none => simp
    | some success =>
      have before := older success (List.mem_of_find?_eq_some found)
      simpa using before.le

theorem readinessFound_ready : s.readiness.1 = true ↔ s.readinessFound = .ready := by
  rw [readiness]
  cases s.readinessFound <;> simp [SimulatorReadiness.answer]

/-- With the newest failure known, the reports are accepting by what came after it. -/
theorem Recorded.accepting_iff (recorded : s.Recorded) {later earlier : List DeliveryReport} {failure : DeliveryReport}
    (split : s.reports = later ++ failure :: earlier) (failed : failure.failed = true)
    (delivered : ∀ report ∈ later, report.failed = false) :
    s.Accepting ↔ later ≠ [] ∨ s.readinessErrorWindowSeconds < s.runner.monotonic - failure.time := by
  constructor
  · rintro (noError | ⟨later', failure', earlier', split', failed', delivered', holds⟩)
    · have mild := noError failure (by rw [split]; simp)
      rw [failed] at mild
      cases mild
    · have same := find_failed failed' delivered' earlier'
      rw [← split', split, find_failed failed delivered earlier] at same
      obtain rfl := Option.some.inj same
      refine holds.imp_left fun some => ?_
      have since := delivered_since (split ▸ recorded.times) failed delivered
      have since' := delivered_since (split' ▸ recorded.times) failed delivered'
      rw [← split', split] at since'
      exact since.mp (since'.mpr some)
  · exact fun holds => Or.inr ⟨later, failure, earlier, split, failed, delivered, holds⟩

/-- Readiness reads off the timestamps what the reports say. -/
theorem Recorded.readiness_iff (recorded : s.Recorded) :
    s.readiness.1 = true ↔ s.liveness.1 = true ∧ s.runner.readySet = true ∧ s.Accepting := by
  rw [readinessFound_ready, readinessFound]
  cases live : s.liveness.1 with
  | false => simp
  | true =>
    cases ready : s.runner.readySet with
    | false => simp
    | true =>
      simp only [Bool.true_eq_false, if_false, true_and]
      rw [recorded.errorAt, recorded.okAt]
      cases found : s.reports.find? (·.failed) with
      | none =>
        have noError : ∀ report ∈ s.reports, report.failed = false := by
          simpa using List.find?_eq_none.mp found
        exact iff_of_true rfl (Or.inl noError)
      | some failure =>
        obtain ⟨failed, later, earlier, split, before⟩ := List.find?_eq_some_iff_append.mp found
        have delivered : ∀ report ∈ later, report.failed = false := by simpa using before
        have since := delivered_since (split ▸ recorded.times) failed delivered
        rw [← split] at since
        rw [recorded.accepting_iff split failed delivered, ← since]
        dsimp only [Option.map_some]
        split
        · rename_i holds
          exact iff_of_true rfl (by simpa using holds)
        · rename_i fails
          exact iff_of_false (by rintro ⟨⟩) (by simpa using fails)

theorem recorded (reach : Reach Step (initial settings window now) s) : s.Recorded := by
  have base : (initial settings window now).Recorded :=
    ⟨List.Pairwise.nil, by simp [initial], rfl, rfl, fun _ _ => sub_self _⟩
  exact reach.invariant Recorded base fun _ _ _ _ holds taken => holds.step taken

/-- A fatal error and the death of the loop are reported for ever; errors
that are not fatal change nothing about liveness, nor does a pause, whose
time no stall counts; and readiness is liveness, the dataset and what the
delivery reports say. -/
theorem probes_tell_history (reach : Reach Step (initial settings window now) s) :
    (∀ event after later, s.Step event after → event.Breaks → Reach Step after later → later.liveness.1 = false) ∧
      (∀ event after, s.Step event after → event.Transient → after.liveness = s.liveness) ∧
      (∀ later, s.runner.paused = true → Reach (Guarded Step fun _ event => event.Idle) s later →
        later.liveness = s.liveness) ∧
      (∀ seconds, s.runner.stopSet = false → s.runner.liveness = .stalled seconds → s.unpausedSeconds = seconds) ∧
      (s.readiness.1 = true ↔ s.liveness.1 = true ∧ s.runner.readySet = true ∧ s.Accepting) ∧
      (s.readiness.1 = true → s.liveness.1 = true) := by
  have recorded := recorded reach
  refine ⟨?_, fun event after taken transient => ?_, ?_, ?_, recorded.readiness_iff,
    fun ready => (recorded.readiness_iff.mp ready).1⟩
  · intro event after later taken breaks onwards
    have broken : later.Broken := onwards.invariant Broken (broken_of_breaks taken breaks)
      fun _ _ _ _ holds next => holds.step next
    exact broken.not_live
  · rw [liveness, liveness, runner_of_transient taken transient]
  · intro later paused onwards
    have same := onwards.invariant (fun now => now.runner.paused = true ∧ now.liveness = s.liveness) ⟨paused, rfl⟩
      fun before event after _ holds taken => by
        obtain ⟨waits, unchanged⟩ := idle_step holds.1 taken.1 taken.2
        exact ⟨waits, unchanged.trans holds.2⟩
    exact same.2
  · intro seconds going stalled
    obtain ⟨unpaused, _, measured, _⟩ := SimulatorRunner.stalled_conditions stalled
    exact (recorded.unpaused going unpaused).symm.trans measured

/-- A timed-out message half a minute and a second ago: the window has passed. -/
theorem ready_after_window : ∃ s, Reach Step (initial {} 30 0) s ∧ s.reports.length = 1 ∧ s.readiness.1 = true := by
  let error : KafkaError := ⟨⟨"Local: Message timed out", by decide⟩, false⟩
  have started : Reach Step (initial {} 30 0) _ := Reach.next .refl (.runner .start) (.runner (.start rfl) (by rintro _ ⟨⟩))
  have ready := started.next (.runner (.downloaded 40)) (.runner (.downloaded rfl) (by rintro _ ⟨⟩))
  have failed := ready.next (.report (some error)) (.report (by rintro _ ⟨⟩))
  have waited := failed.next (.runner (.passes 31))
    (.runner (.passes fun _ busy _ => (by cases busy; decide +kernel)) (by rintro _ ⟨⟩))
  refine ⟨_, waited, rfl, (probes_tell_history waited).2.2.2.2.1.mpr ⟨by decide +kernel, rfl, Or.inr ?_⟩⟩
  exact ⟨[], ⟨0, some error⟩, [], rfl, rfl, by rintro _ ⟨⟩, Or.inr (by decide +kernel)⟩

end SimulatorProbes

end Amel
