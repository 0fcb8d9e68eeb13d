import Mathlib.Algebra.Order.Field.Rat
import Mathlib.Data.NNRat.Defs
import Mathlib.Tactic.Linarith
import Amel.Ingestor.Readiness

namespace Amel

open Transition

/-- The settings of the simulator that its pace and its liveness read. -/
structure SimulatorSettings where
  eventsPerSecond : ℚ := 100
  burstMode : Bool := false
  burstIntervalSeconds : ℚ := 30
  burstDurationSeconds : ℚ := 5
  burstRateMultiplier : ℚ := 10
  stallTimeoutSeconds : ℚ := 120

/-- `_effective_rate`, so many seconds after the start. -/
def SimulatorSettings.effectiveRate (settings : SimulatorSettings) (elapsed : ℚ) : ℚ :=
  if settings.burstMode then
    let cycle := settings.burstIntervalSeconds + settings.burstDurationSeconds
    let position := if 0 < cycle then elapsed - cycle * (elapsed / cycle).floor else 0
    if position < settings.burstDurationSeconds then settings.eventsPerSecond * settings.burstRateMultiplier
    else settings.eventsPerSecond
  else settings.eventsPerSecond

/-- Where `_loop` stands: at the download, at work until it is back at
`pause_event.wait()`, or out. -/
inductive LoopPhase
  | notStarted
  | downloading
  | busyUntil (time : ℚ)
  | ended

/-- A `SimulatorRunner` as its liveness sees it. -/
structure SimulatorRunner where
  settings : SimulatorSettings
  monotonic : ℚ
  startTime : ℚ
  lastProgressAt : ℚ
  paused : Bool := false
  readySet : Bool := false
  stopSet : Bool := false
  phase : LoopPhase := .notStarted
  pollThreadAlive : Bool := true
  fatalError : Option ErrorText := none
  loopError : Option ErrorText := none

/-- How long the outside takes in one iteration: the producer calls, the
second where there is a duplicate, and the read of the next row. -/
structure IterationCalls where
  first : ℚ≥0
  second : Option ℚ≥0
  raised : Bool
  read : ℚ≥0

inductive RunnerAction
  | start
  | downloaded (read : ℚ≥0)
  | takeRow (calls : IterationCalls)
  | ends (error : Option ErrorText)
  | pause
  | resume
  | stop
  | deliveryFatal (error : ErrorText)
  | pollThreadEnds
  | passes (seconds : ℚ≥0)

/-- What `liveness` finds, in the order of its checks. -/
inductive SimulatorLiveness
  | fatalError (error : ErrorText)
  | loopDied (error : ErrorText)
  | threadExited
  | pollThreadExited
  | stalled (seconds : ℚ)
  | ok
  deriving DecidableEq

def SimulatorLiveness.answer : SimulatorLiveness → Bool × String
  | fatalError error => (false, "kafka producer fatal error: " ++ error.1)
  | loopDied error => (false, "simulator loop died: " ++ error.1)
  | threadExited => (false, "simulator loop thread exited unexpectedly")
  | pollThreadExited => (false, "kafka producer poll thread exited")
  | stalled seconds => (false, "simulator loop stalled for " ++ Python.fixed0 seconds ++ "s")
  | ok => (true, "ok")

namespace SimulatorRunner

def initial (settings : SimulatorSettings) (now : ℚ) : SimulatorRunner where
  settings := settings
  monotonic := now
  startTime := now
  lastProgressAt := now

/-- `self._thread.ident is not None`. -/
def threadStarted (s : SimulatorRunner) : Bool :=
  match s.phase with
  | .notStarted => false
  | .downloading | .busyUntil _ | .ended => true

/-- The loop is under way. -/
def loopRuns (s : SimulatorRunner) : Bool :=
  match s.phase with
  | .downloading | .busyUntil _ => true
  | .notStarted | .ended => false

/-- `liveness`. -/
def liveness (s : SimulatorRunner) : SimulatorLiveness :=
  match s.fatalError, s.loopError with
  | some error, _ => .fatalError error
  | none, some error => .loopDied error
  | none, none =>
    if s.threadStarted ∧ ¬s.loopRuns ∧ ¬s.stopSet then .threadExited
    else if ¬s.pollThreadAlive then .pollThreadExited
    else if s.threadStarted ∧ ¬s.paused ∧ s.readySet ∧
        s.settings.stallTimeoutSeconds < s.monotonic - s.lastProgressAt then
      .stalled (s.monotonic - s.lastProgressAt)
    else .ok

/-- The time from one `last_progress_at` to the next arrival at
`pause_event.wait()`: the producer calls, a second of back-off after an
exception, the pause between events, the read of the next row. -/
def iterationSeconds (s : SimulatorRunner) (calls : IterationCalls) : ℚ :=
  let rate := s.settings.effectiveRate (s.monotonic - s.startTime)
  (calls.first : ℚ) + (calls.second.getD 0 : ℚ≥0) + (if calls.raised then 1 else 0) +
    (if 0 < rate then 1 / rate else 0) + (calls.read : ℚ)

/-- The loop, the callers of `pause`, `resume` and `stop`, and time, which
passes in the calls and the sleeps of the loop and while it waits paused. -/
inductive Step : SimulatorRunner → RunnerAction → SimulatorRunner → Prop
  | start {s} : s.phase = .notStarted → Step s .start { s with phase := .downloading }
  | downloaded {s : SimulatorRunner} {read : ℚ≥0} : s.phase = .downloading →
      Step s (.downloaded read) { s with readySet := true, phase := .busyUntil (s.monotonic + read) }
  | takeRow {s time calls} : s.phase = .busyUntil time → time ≤ s.monotonic → s.paused = false → s.stopSet = false →
      Step s (.takeRow calls)
        { s with lastProgressAt := s.monotonic, phase := .busyUntil (s.monotonic + s.iterationSeconds calls) }
  | ends {s error} : s.loopRuns = true → Step s (.ends error) { s with phase := .ended, loopError := error }
  | pause {s} : Step s .pause { s with paused := true }
  | resume {s} : Step s .resume { s with lastProgressAt := s.monotonic, paused := false }
  | stop {s} : Step s .stop { s with stopSet := true, paused := false }
  | deliveryFatal {s error} : Step s (.deliveryFatal error) { s with fatalError := some error }
  | pollThreadEnds {s} : Step s .pollThreadEnds { s with pollThreadAlive := false }
  | passes {s : SimulatorRunner} {seconds : ℚ≥0} :
      (∀ time : ℚ, s.phase = .busyUntil time → s.paused = false → s.monotonic + seconds ≤ time) →
      Step s (.passes seconds) { s with monotonic := s.monotonic + seconds }

/-- Nothing takes longer than the stall timeout: the way from construction,
or from a resumption after it, to the first row, and the iterations. A
pause that has outlasted it is not ended by a stop. -/
def InTime (s : SimulatorRunner) : RunnerAction → Prop
  | .downloaded read =>
    (read : ℚ) ≤ s.settings.stallTimeoutSeconds ∧
      (s.paused = false → s.monotonic + read ≤ s.lastProgressAt + s.settings.stallTimeoutSeconds)
  | .takeRow calls => s.iterationSeconds calls ≤ s.settings.stallTimeoutSeconds
  | .stop => s.paused = true → ∀ time, s.phase = .busyUntil time →
    max s.monotonic time ≤ s.lastProgressAt + s.settings.stallTimeoutSeconds
  | _ => True

variable {s after : SimulatorRunner} {action : RunnerAction} {settings : SimulatorSettings} {now : ℚ}

theorem iterationSeconds_nonneg (s : SimulatorRunner) (calls : IterationCalls) : 0 ≤ s.iterationSeconds calls := by
  have first : (0 : ℚ) ≤ calls.first := calls.first.2
  have second : (0 : ℚ) ≤ (calls.second.getD 0 : ℚ≥0) := (calls.second.getD 0).2
  have read : (0 : ℚ) ≤ calls.read := calls.read.2
  have backoff : (0 : ℚ) ≤ if calls.raised then 1 else 0 := by
    split
    · exact zero_le_one
    · exact le_rfl
  have between (rate : ℚ) : 0 ≤ if 0 < rate then 1 / rate else 0 := by
    split
    · rename_i proper
      exact (one_div_pos.mpr proper).le
    · exact le_rfl
  have sleep := between (s.settings.effectiveRate (s.monotonic - s.startTime))
  unfold iterationSeconds
  dsimp only
  linarith

/-- Before the ready flag no stall is looked for; after it, the loop is back
within the timeout of now, and unless paused within that of its last progress. -/
structure Punctual (s : SimulatorRunner) : Prop where
  unready : s.phase = .notStarted ∨ s.phase = .downloading → s.readySet = false
  patient : ∀ time, s.phase = .busyUntil time → 0 ≤ s.settings.stallTimeoutSeconds ∧
    time ≤ s.monotonic + s.settings.stallTimeoutSeconds
  recent : ∀ time, s.phase = .busyUntil time → s.paused = false →
    s.monotonic ≤ s.lastProgressAt + s.settings.stallTimeoutSeconds ∧
      time ≤ s.lastProgressAt + s.settings.stallTimeoutSeconds

theorem Punctual.step (punctual : s.Punctual) (taken : s.Step action after) (inTime : s.InTime action) :
    after.Punctual := by
  cases taken with
  | start =>
    exact ⟨fun _ => punctual.unready (Or.inl ‹_›), fun _ busy => (by cases busy), fun _ busy => (by cases busy)⟩
  | @downloaded read =>
    obtain ⟨short, soon⟩ := inTime
    have nonneg : (0 : ℚ) ≤ read := read.2
    refine ⟨fun early => (by rcases early with busy | busy <;> cases busy), ?_, ?_⟩
    · rintro time ⟨⟩
      dsimp only
      constructor <;> linarith
    · rintro time ⟨⟩ running
      have arrives := soon running
      dsimp only
      constructor <;> linarith
  | takeRow busy reached =>
    have nonneg := s.iterationSeconds_nonneg ‹_›
    have patient := (punctual.patient _ busy).1
    change s.iterationSeconds _ ≤ _ at inTime
    refine ⟨fun early => (by rcases early with busy | busy <;> cases busy), ?_, ?_⟩
    · rintro time ⟨⟩
      dsimp only
      constructor <;> linarith
    · rintro time ⟨⟩ -
      dsimp only
      constructor <;> linarith
  | ends =>
    exact ⟨fun early => (by rcases early with busy | busy <;> cases busy), fun _ busy => (by cases busy),
      fun _ busy => (by cases busy)⟩
  | pause => exact ⟨punctual.unready, punctual.patient, fun _ _ running => by cases running⟩
  | resume =>
    refine ⟨punctual.unready, punctual.patient, fun time busy _ => ?_⟩
    obtain ⟨positive, bound⟩ := punctual.patient time busy
    dsimp only
    constructor <;> linarith
  | stop =>
    refine ⟨punctual.unready, punctual.patient, fun time busy _ => ?_⟩
    cases paused : s.paused with
    | false => exact punctual.recent time busy paused
    | true => exact max_le_iff.mp (inTime paused time busy)
  | deliveryFatal | pollThreadEnds => exact ⟨punctual.unready, punctual.patient, punctual.recent⟩
  | @passes seconds allowed =>
    have nonneg : (0 : ℚ) ≤ seconds := seconds.2
    refine ⟨punctual.unready, fun time busy => ?_, fun time busy running => ?_⟩
    · obtain ⟨positive, bound⟩ := punctual.patient time busy
      dsimp only
      constructor <;> linarith
    · have arrives := allowed time busy running
      have recent := (punctual.recent time busy running).2
      dsimp only
      constructor <;> linarith

theorem stalled_conditions {seconds : ℚ} (stalled : s.liveness = .stalled seconds) :
    s.paused = false ∧ s.readySet = true ∧ s.monotonic - s.lastProgressAt = seconds ∧
      s.settings.stallTimeoutSeconds < s.monotonic - s.lastProgressAt := by
  unfold liveness at stalled
  split at stalled
  · cases stalled
  · cases stalled
  · split at stalled
    · cases stalled
    · split at stalled
      · cases stalled
      · split at stalled
        · rename_i found
          cases stalled
          exact ⟨Bool.eq_false_iff.mpr found.2.1, found.2.2.1, rfl, found.2.2.2⟩
        · cases stalled

/-- While its loop runs and nothing takes longer than the stall timeout,
the simulator is not reported stalled. -/
theorem never_stalled (reach : Reach (Guarded Step InTime) (initial settings now) s) (running : s.loopRuns = true)
    (seconds : ℚ) : s.liveness ≠ .stalled seconds := by
  have base : (initial settings now).Punctual :=
    ⟨fun _ => rfl, fun _ busy => (by cases busy), fun _ busy => (by cases busy)⟩
  have punctual := reach.invariant Punctual base fun before action after _ holds taken => holds.step taken.1 taken.2
  intro stalled
  obtain ⟨unpaused, ready, _, late⟩ := stalled_conditions stalled
  cases phase : s.phase with
  | notStarted | ended =>
    rw [loopRuns, phase] at running
    cases running
  | downloading =>
    rw [punctual.unready (Or.inr phase)] at ready
    cases ready
  | busyUntil time =>
    have recent := (punctual.recent time phase unpaused).1
    linarith

/-- The first rows of a simulator that finds its dataset there. -/
theorem rows_in_time : ∃ s, Reach Step (initial {} 0) s ∧ s.readySet = true ∧ s.loopRuns = true ∧
    s.monotonic = 101 ∧ s.liveness ≠ .stalled 101 := by
  let calls : IterationCalls := ⟨50, some 50, true, 1⟩
  have inTime : iterationSeconds { initial {} 0 with monotonic := 1 } calls ≤ 120 := by decide +kernel
  have started : Reach (Guarded Step InTime) (initial {} 0) _ := Reach.next .refl .start ⟨.start rfl, trivial⟩
  have ready := started.next (.downloaded 1) ⟨.downloaded rfl, show (1 : ℚ) ≤ 120 by decide +kernel,
    fun _ => show (0 : ℚ) + 1 ≤ 0 + 120 by decide +kernel⟩
  have read := ready.next (.passes 1) ⟨.passes fun _ busy _ => (by cases busy; decide +kernel), trivial⟩
  have taken := read.next (.takeRow calls) ⟨.takeRow rfl (by decide +kernel) rfl rfl, inTime⟩
  have worked := taken.next (.passes 100) ⟨.passes fun _ busy _ => (by cases busy; decide +kernel), trivial⟩
  exact ⟨_, worked.forget_guard, rfl, rfl, by decide +kernel, never_stalled worked rfl 101⟩

/-- Every read of a row and every producer call returns within a bound. -/
def CallsWithin (bound : ℚ) (_ : SimulatorRunner) : RunnerAction → Prop
  | .downloaded read => read ≤ bound
  | .takeRow calls =>
    calls.first ≤ bound ∧ (∀ second, calls.second = some second → second ≤ bound) ∧ calls.read ≤ bound
  | _ => True

/-- The ready flag is set after 200 seconds of download, and the loop has yet to read its first row. -/
theorem stalled_after_download :
    ¬∀ settings : SimulatorSettings, 0 < settings.eventsPerSecond → ∀ bound < settings.stallTimeoutSeconds,
      ∀ now s, Reach (Guarded Step (CallsWithin bound)) (initial settings now) s → s.loopRuns = true →
        ∀ seconds, s.liveness ≠ .stalled seconds := by
  intro never
  have started : Reach (Guarded Step (CallsWithin 1)) (initial {} 0) _ := Reach.next .refl .start ⟨.start rfl, trivial⟩
  have waited := started.next (.passes 200) ⟨.passes fun _ busy => (by cases busy), trivial⟩
  have ready := waited.next (.downloaded 1) ⟨.downloaded rfl, le_refl (1 : ℚ)⟩
  exact never {} (by decide +kernel) 1 (by decide +kernel) 0 _ ready rfl 200 (by decide +kernel)

end SimulatorRunner

end Amel
