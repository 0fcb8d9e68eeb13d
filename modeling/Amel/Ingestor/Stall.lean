import Mathlib.Algebra.Order.Field.Rat
import Mathlib.Algebra.Order.Ring.Rat
import Mathlib.Tactic.Linarith
import Mathlib.Tactic.Ring
import Amel.Ingestor.Readiness

namespace Amel

open Transition

/-- The settings that the pace of the consume loop and its liveness read. -/
structure PaceSettings where
  batchSize : Int := 500
  batchTimeoutSeconds : ℚ := 2
  maxRetries : Int := 5
  stallTimeoutSeconds : ℚ := 120
  retryBackoffBaseSeconds : ℚ := 1 / 2

/-- How long one write attempt and one offset commit may take. -/
structure CallBounds where
  write : ℚ≥0
  commit : ℚ≥0

/-- What `_write_with_retry` does after a failed attempt. The back-off
raises where it is negative, and where it is too large for a float or for
`time.sleep`. -/
inductive RetryDecision
  | raises
  | backoffRaises
  | sleeps (seconds : ℚ)
  deriving DecidableEq

def PaceSettings.afterFailure (settings : PaceSettings) (attempt : Nat) : RetryDecision :=
  if settings.maxRetries < attempt then .raises
  else
    let backoff := settings.retryBackoffBaseSeconds * 2 ^ (attempt - 1)
    if backoff < 0 ∨ 1024 < attempt ∨ 2 ^ 63 ≤ backoff * 10 ^ 9 then .backoffRaises else .sleeps backoff

/-- A call of `_write_with_retry` that has ended: its attempts in order,
`true` for one that committed, and whether it raised. -/
structure WriteCall where
  attempts : List Bool
  raised : Bool
  deriving DecidableEq

/-- What the end of a write call says: at most so many attempts, an exception
exactly where there were some and all failed, and then either the last that
was allowed or one behind which the back-off itself raised. -/
structure WriteCall.Sound (settings : PaceSettings) (call : WriteCall) : Prop where
  bounded : (call.attempts.length : Int) ≤ settings.maxRetries + 1
  raises : call.raised = true ↔ call.attempts ≠ [] ∧ ∀ attempt ∈ call.attempts, attempt = false
  exhausts : call.raised = true → (call.attempts.length : Int) = settings.maxRetries + 1 ∨
    settings.afterFailure call.attempts.length = .backoffRaises

/-- Where `_run` stands: in the `while` of `_poll_batch`, in a poll, a write
attempt, a sleep or a commit that lasts until a moment at most, or out. -/
inductive IngestorPoint
  | polling (deadline : ℚ) (batch : Nat)
  | inPoll (deadline : ℚ) (batch : Nat) («until» : ℚ)
  | writing (attempt : Nat) («until» : ℚ)
  | sleeping (attempt : Nat) («until» : ℚ)
  | committing («until» : ℚ)
  | ended

/-- The end of the call under way, if there is one. -/
def IngestorPoint.until : IngestorPoint → Option ℚ
  | .inPoll _ _ time | .writing _ time | .sleeping _ time | .committing time => some time
  | .polling _ _ | .ended => none

/-- An ingestor whose loop has been started, the attempts of the write call
under way, and the write calls that have ended. -/
structure IngestorLoop where
  ingestor : StreamIngestor
  point : IngestorPoint
  attempts : List Bool := []
  calls : List WriteCall := []

namespace IngestorLoop

variable (settings : PaceSettings) (bounds : CallBounds)

/-- The loop is started at construction. -/
def initial (now : ℚ) : IngestorLoop where
  ingestor := (StreamIngestor.initial now).apply .start
  point := .polling (now + settings.batchTimeoutSeconds) 0

/-- The loop thread records the exception and ends. -/
def dies (s : IngestorLoop) (error : ErrorText) : IngestorLoop :=
  { s with ingestor := s.ingestor.apply (.loopDies error), point := .ended }

/-- The write call ends with its last attempt. -/
def callEnds (s : IngestorLoop) (last : List Bool) (raised : Bool) : IngestorLoop :=
  { s with attempts := [], calls := s.calls ++ [⟨s.attempts ++ last, raised⟩] }

/-- The end of the loop body: progress, and the next turn unless stopped. -/
def turn (s : IngestorLoop) : IngestorLoop :=
  let ingestor := s.ingestor.apply .progress
  { s with
    ingestor
    point := if ingestor.stopSet then .ended else .polling (ingestor.monotonic + settings.batchTimeoutSeconds) 0 }

/-- An attempt begins. -/
def write (s : IngestorLoop) (attempt : Nat) : IngestorLoop :=
  { s with point := .writing attempt (s.ingestor.monotonic + bounds.write) }

/-- The offsets are committed once the rows are written. -/
def commit (s : IngestorLoop) : IngestorLoop :=
  { s with point := .committing (s.ingestor.monotonic + bounds.commit) }

/-- `len(batch) < batch_size and time.monotonic() < deadline`, and no stop. -/
def Polls (s : IngestorLoop) (deadline : ℚ) (batch : Nat) : Prop :=
  (batch : Int) < settings.batchSize ∧ s.ingestor.monotonic < deadline ∧ s.ingestor.stopSet = false

end IngestorLoop

inductive IngestorAction
  | poll
  | pollReturns (message : Bool)
  | batchEnds (rows : Bool)
  | writes
  | fails (error : ErrorText)
  | wakes
  | commits (error : Option ErrorText)
  | dies (error : ErrorText)
  | stop
  | passes (seconds : ℚ≥0)

namespace IngestorLoop

open IngestorPoint

/-- The consume loop, a caller of `stop`, and time, which passes in the
calls of the loop and nowhere else. Any exception from outside the write
attempts ends the loop. -/
inductive Step (settings : PaceSettings) (bounds : CallBounds) : IngestorLoop → IngestorAction → IngestorLoop → Prop
  | poll {s : IngestorLoop} {deadline batch} : s.point = polling deadline batch → s.Polls settings deadline batch →
      Step settings bounds s .poll { s with point := inPoll deadline batch (s.ingestor.monotonic + 1 / 2) }
  | pollReturns {s : IngestorLoop} {deadline batch time message} : s.point = inPoll deadline batch time →
      Step settings bounds s (.pollReturns message)
        { s with point := polling deadline (batch + if message then 1 else 0) }
  | noBatch {s : IngestorLoop} {deadline} : s.point = polling deadline 0 → ¬s.Polls settings deadline 0 →
      Step settings bounds s (.batchEnds false) (s.turn settings)
  | noRows {s : IngestorLoop} {deadline batch} : s.point = polling deadline (batch + 1) →
      ¬s.Polls settings deadline (batch + 1) →
      Step settings bounds s (.batchEnds false) ((s.callEnds [] false).commit bounds)
  | rows {s : IngestorLoop} {deadline batch} : s.point = polling deadline (batch + 1) →
      ¬s.Polls settings deadline (batch + 1) → Step settings bounds s (.batchEnds true) (s.write bounds 0)
  | writes {s : IngestorLoop} {attempt time} : s.point = writing attempt time →
      Step settings bounds s .writes ((s.callEnds [true] false).commit bounds)
  | retries {s : IngestorLoop} {attempt time seconds error} : s.point = writing attempt time →
      settings.afterFailure (attempt + 1) = .sleeps seconds →
      Step settings bounds s (.fails error)
        { s with attempts := s.attempts ++ [false], point := sleeping (attempt + 1) (s.ingestor.monotonic + seconds) }
  | givesUp {s : IngestorLoop} {attempt time error} : s.point = writing attempt time →
      (∀ seconds, settings.afterFailure (attempt + 1) ≠ .sleeps seconds) →
      Step settings bounds s (.fails error) ((s.callEnds [false] true).dies error)
  | wakes {s : IngestorLoop} {attempt time} : s.point = sleeping attempt time → time ≤ s.ingestor.monotonic →
      Step settings bounds s .wakes (s.write bounds attempt)
  | commits {s : IngestorLoop} {time error} : s.point = committing time →
      Step settings bounds s (.commits error)
        ({ s with ingestor := s.ingestor.apply (error.elim .commitAccepted .commitRejected) }.turn settings)
  | dies {s : IngestorLoop} {error} : (∀ attempt time, s.point ≠ writing attempt time ∧ s.point ≠ sleeping attempt time) →
      s.point ≠ ended → Step settings bounds s (.dies error) (s.dies error)
  | stop {s : IngestorLoop} : Step settings bounds s .stop { s with ingestor := s.ingestor.apply .stop }
  | passes {s : IngestorLoop} {seconds : ℚ≥0} :
      (∀ time, s.point.until = some time → s.ingestor.monotonic + seconds ≤ time) →
      (∀ deadline batch, s.point ≠ polling deadline batch) →
      Step settings bounds s (.passes seconds) { s with ingestor := s.ingestor.apply (.passes seconds) }

/-- The longest way from one progress to the next: the poll of a batch, the
back-offs, the attempts and the commit. -/
def budget (settings : PaceSettings) (bounds : CallBounds) : ℚ :=
  settings.batchTimeoutSeconds + 1 / 2 + settings.retryBackoffBaseSeconds * (2 ^ settings.maxRetries - 1) +
    (settings.maxRetries + 1) * bounds.write + bounds.commit

/-- In every run, until the loop dies or is stopped, liveness is true, and
every write call is sound. -/
structure NeverStalls (settings : PaceSettings) (bounds : CallBounds) : Prop where
  live : ∀ now s, Reach (Step settings bounds) (initial settings now) s → s.ingestor.loopError = none →
    s.ingestor.stopSet = false → (s.ingestor.liveness settings.stallTimeoutSeconds).1 = true
  attempts : ∀ now s, Reach (Step settings bounds) (initial settings now) s →
    (s.attempts.length : Int) ≤ settings.maxRetries + 1
  calls : ∀ now s, Reach (Step settings bounds) (initial settings now) s → ∀ call ∈ s.calls, call.Sound settings

variable {settings : PaceSettings} {bounds : CallBounds} {s after : IngestorLoop} {action : IngestorAction}
  {retries attempt : Nat} {seconds : ℚ}

theorem sleeps_of_afterFailure (sleeps : settings.afterFailure (attempt + 1) = .sleeps seconds) :
    (attempt + 1 : Int) ≤ settings.maxRetries ∧ seconds = settings.retryBackoffBaseSeconds * 2 ^ attempt := by
  unfold PaceSettings.afterFailure at sleeps
  split at sleeps
  · cases sleeps
  · rename_i allowed
    dsimp only at sleeps
    split at sleeps
    · cases sleeps
    · cases sleeps
      exact ⟨by omega, rfl⟩

theorem exhausted_of_afterFailure (never : ∀ seconds, settings.afterFailure (attempt + 1) ≠ .sleeps seconds) :
    settings.maxRetries < (attempt + 1 : Nat) ∨ settings.afterFailure (attempt + 1) = .backoffRaises := by
  unfold PaceSettings.afterFailure at never ⊢
  split
  · exact Or.inl ‹_›
  · rename_i allowed
    rw [if_neg allowed] at never
    dsimp only at never ⊢
    split
    · exact Or.inr rfl
    · rename_i short
      rw [if_neg short] at never
      exact absurd rfl (never _)

/-- The time spent since the last progress when so many attempts have failed
and been slept on: the back-offs add up to a geometric sum. -/
def spent (settings : PaceSettings) (bounds : CallBounds) (attempt : Nat) : ℚ :=
  settings.batchTimeoutSeconds + 1 / 2 + settings.retryBackoffBaseSeconds * (2 ^ attempt - 1) + attempt * bounds.write

theorem spent_zero : spent settings bounds 0 = settings.batchTimeoutSeconds + 1 / 2 := by
  simp [spent]

theorem spent_succ : spent settings bounds attempt + bounds.write + settings.retryBackoffBaseSeconds * 2 ^ attempt =
    spent settings bounds (attempt + 1) := by
  unfold spent
  push_cast
  ring

theorem backoff_nonneg (base : 0 ≤ settings.retryBackoffBaseSeconds) (attempt : Nat) :
    0 ≤ settings.retryBackoffBaseSeconds * 2 ^ attempt := mul_nonneg base (by positivity)

theorem spent_mono (bounds : CallBounds) (base : 0 ≤ settings.retryBackoffBaseSeconds) {fewer more : Nat}
    (le : fewer ≤ more) : spent settings bounds fewer ≤ spent settings bounds more := by
  induction le with
  | refl => exact le_rfl
  | @step more _ ih =>
    have backoff := backoff_nonneg base more
    have nonneg : (0 : ℚ) ≤ bounds.write := bounds.write.2
    rw [← spent_succ]
    linarith

theorem budget_eq (bounds : CallBounds) (natural : settings.maxRetries = retries) :
    budget settings bounds = spent settings bounds retries + bounds.write + bounds.commit := by
  unfold budget spent
  rw [natural, zpow_natCast]
  push_cast
  ring

/-- Where the loop stands and how long after the last progress. -/
def Within (settings : PaceSettings) (bounds : CallBounds) (ingestor : StreamIngestor) : IngestorPoint → Prop
  | polling deadline batch => deadline = ingestor.lastProgressAt + settings.batchTimeoutSeconds ∧
      (batch = 0 ∧ ingestor.monotonic = ingestor.lastProgressAt ∨
        ingestor.monotonic ≤ ingestor.lastProgressAt + spent settings bounds 0)
  | inPoll deadline _ time => deadline = ingestor.lastProgressAt + settings.batchTimeoutSeconds ∧
      ingestor.monotonic ≤ time ∧ time ≤ ingestor.lastProgressAt + spent settings bounds 0
  | writing attempt time => (attempt : Int) ≤ settings.maxRetries ∧ ingestor.monotonic ≤ time ∧
      time ≤ ingestor.lastProgressAt + spent settings bounds attempt + bounds.write
  | sleeping attempt time => (attempt : Int) ≤ settings.maxRetries ∧ ingestor.monotonic ≤ time ∧
      time ≤ ingestor.lastProgressAt + spent settings bounds attempt
  | committing time => ingestor.monotonic ≤ time ∧ time ≤ ingestor.lastProgressAt + budget settings bounds
  | ended => True

theorem within_turn (s : IngestorLoop) :
    Within settings bounds (s.turn settings).ingestor (s.turn settings).point := by
  unfold turn
  dsimp only
  split
  · trivial
  · exact ⟨rfl, Or.inl ⟨rfl, rfl⟩⟩

theorem within_write (allowed : (attempt : Int) ≤ settings.maxRetries)
    (soon : s.ingestor.monotonic ≤ s.ingestor.lastProgressAt + spent settings bounds attempt) :
    Within settings bounds (s.write bounds attempt).ingestor (s.write bounds attempt).point := by
  have writes : (0 : ℚ) ≤ bounds.write := bounds.write.2
  refine ⟨allowed, ?_, ?_⟩
  · show s.ingestor.monotonic ≤ s.ingestor.monotonic + bounds.write
    linarith
  · show s.ingestor.monotonic + bounds.write ≤ s.ingestor.lastProgressAt + spent settings bounds attempt + bounds.write
    linarith

theorem within_commit (natural : settings.maxRetries = retries) (base : 0 ≤ settings.retryBackoffBaseSeconds)
    (allowed : attempt ≤ retries)
    (soon : s.ingestor.monotonic ≤ s.ingestor.lastProgressAt + spent settings bounds attempt + bounds.write) :
    Within settings bounds (s.commit bounds).ingestor (s.commit bounds).point := by
  have commits : (0 : ℚ) ≤ bounds.commit := bounds.commit.2
  have fewer := spent_mono bounds base allowed
  have whole := budget_eq bounds natural
  constructor
  · show s.ingestor.monotonic ≤ s.ingestor.monotonic + bounds.commit
    linarith
  · show s.ingestor.monotonic + bounds.commit ≤ s.ingestor.lastProgressAt + budget settings bounds
    linarith

/-- A step keeps within the time that its place allows. -/
theorem Within.step (within : Within settings bounds s.ingestor s.point) (natural : settings.maxRetries = retries)
    (base : 0 ≤ settings.retryBackoffBaseSeconds) (taken : Step settings bounds s action after) :
    Within settings bounds after.ingestor after.point := by
  have writes : (0 : ℚ) ≤ bounds.write := bounds.write.2
  cases taken with
  | poll isAt polls =>
    rw [isAt] at within
    obtain ⟨due, _⟩ := within
    refine ⟨due, by linarith, ?_⟩
    have early := polls.2.1
    rw [spent_zero]
    linarith
  | pollReturns isAt =>
    rw [isAt] at within
    obtain ⟨due, now, soon⟩ := within
    exact ⟨due, Or.inr (now.trans soon)⟩
  | noBatch => exact within_turn s
  | noRows isAt =>
    rw [isAt] at within
    obtain ⟨_, ⟨impossible, _⟩ | soon⟩ := within
    · cases impossible
    · refine within_commit natural base (Nat.zero_le retries) ?_
      show s.ingestor.monotonic ≤ s.ingestor.lastProgressAt + spent settings bounds 0 + bounds.write
      linarith
  | rows isAt =>
    rw [isAt] at within
    obtain ⟨_, ⟨impossible, _⟩ | soon⟩ := within
    · cases impossible
    · exact within_write (by simp [natural]) soon
  | writes isAt =>
    rw [isAt] at within
    obtain ⟨allowed, now, soon⟩ := within
    exact within_commit natural base (by omega) (now.trans soon)
  | @retries attempt time seconds error isAt sleeps =>
    rw [isAt] at within
    obtain ⟨_, now, soon⟩ := within
    obtain ⟨allowed, rfl⟩ := sleeps_of_afterFailure sleeps
    refine ⟨allowed, ?_, ?_⟩
    · have backoff := backoff_nonneg base attempt
      linarith
    · rw [← spent_succ]
      linarith
  | givesUp => trivial
  | wakes isAt woken =>
    rw [isAt] at within
    obtain ⟨allowed, now, soon⟩ := within
    exact within_write allowed (now.trans soon)
  | commits => exact within_turn _
  | dies => trivial
  | stop => exact within
  | @passes seconds allowed moving =>
    cases isAt : s.point with
    | polling deadline batch => exact absurd isAt (moving deadline batch)
    | inPoll deadline batch time =>
      rw [isAt] at within
      exact ⟨within.1, allowed time (by rw [isAt]; rfl), within.2.2⟩
    | writing attempt time =>
      rw [isAt] at within
      exact ⟨within.1, allowed time (by rw [isAt]; rfl), within.2.2⟩
    | sleeping attempt time =>
      rw [isAt] at within
      exact ⟨within.1, allowed time (by rw [isAt]; rfl), within.2.2⟩
    | committing time =>
      rw [isAt] at within
      exact ⟨allowed time (by rw [isAt]; rfl), within.2⟩
    | ended => trivial

/-- The thread is there, and the loop is out only when it died or was
stopped. -/
structure Alive (s : IngestorLoop) : Prop where
  thread : s.ingestor.threadAlive = some true
  «out» : s.point = ended → s.ingestor.loopError ≠ none ∨ s.ingestor.stopSet = true

theorem Alive.step (alive : s.Alive) (taken : Step settings bounds s action after) : after.Alive := by
  obtain ⟨thread, out⟩ := alive
  have turned {s : IngestorLoop} (thread : s.ingestor.threadAlive = some true) : (s.turn settings).Alive := by
    refine ⟨thread, fun isOut => ?_⟩
    unfold turn at isOut ⊢
    dsimp only at isOut ⊢
    split at isOut
    · exact Or.inr ‹_›
    · cases isOut
  cases taken with
  | poll | pollReturns | noRows | rows | writes | retries | wakes => exact ⟨thread, fun isOut => by cases isOut⟩
  | noBatch => exact turned thread
  | @commits time error _ => exact turned (by cases error <;> exact thread)
  | givesUp | dies => exact ⟨thread, fun _ => Or.inl (by simp [dies, StreamIngestor.apply])⟩
  | stop => exact ⟨thread, fun _ => Or.inr rfl⟩
  | passes => exact ⟨thread, out⟩

/-- The attempts of the call under way have all failed, and no more than the
retries allow. -/
def Attempted (settings : PaceSettings) (attempts : List Bool) : IngestorPoint → Prop
  | writing attempt _ | sleeping attempt _ =>
    attempts = List.replicate attempt false ∧ (attempt : Int) ≤ settings.maxRetries
  | polling _ _ | inPoll _ _ _ | committing _ | ended => attempts = []

structure Counted (settings : PaceSettings) (s : IngestorLoop) : Prop where
  current : Attempted settings s.attempts s.point
  calls : ∀ call ∈ s.calls, call.Sound settings

theorem sound_returned (allowed : (attempt : Int) ≤ settings.maxRetries) :
    WriteCall.Sound settings ⟨List.replicate attempt false ++ [true], false⟩ where
  bounded := by simp only [List.length_append, List.length_replicate, List.length_singleton]; omega
  raises := iff_of_false Bool.false_ne_true fun failed => by simpa using failed.2 true (by simp)
  exhausts raised := by cases raised

theorem sound_raised (allowed : (attempt : Int) ≤ settings.maxRetries)
    (never : ∀ seconds, settings.afterFailure (attempt + 1) ≠ .sleeps seconds) :
    WriteCall.Sound settings ⟨List.replicate attempt false ++ [false], true⟩ where
  bounded := by simp only [List.length_append, List.length_replicate, List.length_singleton]; omega
  raises := iff_of_true rfl ⟨by simp, by simp⟩
  exhausts _ := by
    simp only [List.length_append, List.length_replicate, List.length_singleton]
    rcases exhausted_of_afterFailure never with last | breaks
    · exact Or.inl (by omega)
    · exact Or.inr breaks

theorem sound_skipped (natural : 0 ≤ settings.maxRetries) : WriteCall.Sound settings ⟨[], false⟩ where
  bounded := by simp only [List.length_nil]; omega
  raises := iff_of_false Bool.false_ne_true fun failed => failed.1 rfl
  exhausts raised := by cases raised

theorem Counted.callEnds (counted : s.Counted settings) {last : List Bool} {raised : Bool}
    (sound : WriteCall.Sound settings ⟨s.attempts ++ last, raised⟩) :
    ∀ call ∈ (s.callEnds last raised).calls, call.Sound settings := by
  intro call member
  rcases List.mem_append.mp member with earlier | new
  · exact counted.calls call earlier
  · rw [List.mem_singleton.mp new]
    exact sound

theorem Counted.step (counted : s.Counted settings) (natural : 0 ≤ settings.maxRetries)
    (taken : Step settings bounds s action after) : after.Counted settings := by
  have current := counted.current
  have turned {s : IngestorLoop} (noAttempts : s.attempts = []) :
      Attempted settings (s.turn settings).attempts (s.turn settings).point := by
    unfold turn
    dsimp only
    split <;> exact noAttempts
  cases taken with
  | poll isAt | pollReturns isAt =>
    rw [isAt] at current
    exact ⟨current, counted.calls⟩
  | noBatch isAt =>
    rw [isAt] at current
    exact ⟨turned current, counted.calls⟩
  | noRows isAt =>
    rw [isAt] at current
    refine ⟨rfl, counted.callEnds ?_⟩
    rw [show s.attempts = [] from current]
    exact sound_skipped natural
  | rows isAt =>
    rw [isAt] at current
    exact ⟨⟨current, natural⟩, counted.calls⟩
  | writes isAt =>
    rw [isAt] at current
    refine ⟨rfl, counted.callEnds ?_⟩
    rw [current.1]
    exact sound_returned current.2
  | @retries attempt time seconds error isAt sleeps =>
    rw [isAt] at current
    refine ⟨⟨?_, (sleeps_of_afterFailure sleeps).1⟩, counted.calls⟩
    rw [current.1, List.replicate_succ']
  | givesUp isAt never =>
    rw [isAt] at current
    refine ⟨rfl, counted.callEnds ?_⟩
    rw [current.1]
    exact sound_raised current.2 never
  | wakes isAt =>
    rw [isAt] at current
    exact ⟨current, counted.calls⟩
  | commits isAt =>
    rw [isAt] at current
    exact ⟨turned current, counted.calls⟩
  | dies outside =>
    refine ⟨?_, counted.calls⟩
    cases isAt : s.point with
    | writing attempt time => exact absurd isAt (outside attempt time).1
    | sleeping attempt time => exact absurd isAt (outside attempt time).2
    | _ =>
      rw [isAt] at current
      exact current
  | stop | passes => exact ⟨current, counted.calls⟩

theorem Attempted.bounded {attempts : List Bool} {point : IngestorPoint} (natural : 0 ≤ settings.maxRetries)
    (attempted : Attempted settings attempts point) : (attempts.length : Int) ≤ settings.maxRetries + 1 := by
  cases point with
  | writing attempt | sleeping attempt =>
    obtain ⟨rfl, allowed⟩ := attempted
    rw [List.length_replicate]
    omega
  | polling | inPoll | committing | ended =>
    rw [show attempts = [] from attempted, List.length_nil]
    omega

theorem liveness_of_recent {ingestor : StreamIngestor} {stallTimeoutSeconds : ℚ} (noError : ingestor.loopError = none)
    (alive : ingestor.threadAlive = some true)
    (recent : ingestor.monotonic - ingestor.lastProgressAt ≤ stallTimeoutSeconds) :
    (ingestor.liveness stallTimeoutSeconds).1 = true := by
  simp [StreamIngestor.liveness, noError, alive, not_lt.mpr recent]

/-- Wherever the loop stands, its last progress is within the budget, or of
this very moment. -/
theorem Within.recent (within : Within settings bounds s.ingestor s.point) (natural : settings.maxRetries = retries)
    (base : 0 ≤ settings.retryBackoffBaseSeconds) (running : s.point ≠ ended) :
    s.ingestor.monotonic = s.ingestor.lastProgressAt ∨
      s.ingestor.monotonic - s.ingestor.lastProgressAt ≤ budget settings bounds := by
  have writes : (0 : ℚ) ≤ bounds.write := bounds.write.2
  have commits : (0 : ℚ) ≤ bounds.commit := bounds.commit.2
  have whole := budget_eq bounds natural
  have fewer {attempt : Nat} (allowed : attempt ≤ retries) := spent_mono bounds base allowed
  cases isAt : s.point with
  | polling deadline batch =>
    rw [isAt] at within
    have first := fewer (Nat.zero_le retries)
    rcases within.2 with ⟨_, now⟩ | soon
    · exact Or.inl now
    · exact Or.inr (by linarith)
  | inPoll deadline batch time =>
    rw [isAt] at within
    obtain ⟨_, now, soon⟩ := within
    have first := fewer (Nat.zero_le retries)
    exact Or.inr (by linarith)
  | writing attempt time =>
    rw [isAt] at within
    obtain ⟨allowed, now, soon⟩ := within
    have last := fewer (show attempt ≤ retries by omega)
    exact Or.inr (by linarith)
  | sleeping attempt time =>
    rw [isAt] at within
    obtain ⟨allowed, now, soon⟩ := within
    have last := fewer (show attempt ≤ retries by omega)
    exact Or.inr (by linarith)
  | committing time =>
    rw [isAt] at within
    obtain ⟨now, soon⟩ := within
    exact Or.inr (by linarith)
  | ended => exact absurd isAt running

/-- With a stall timeout beyond the budget the ingestor is never reported
stalled while it retries. -/
theorem never_stalls (natural : 0 ≤ settings.maxRetries) (base : 0 ≤ settings.retryBackoffBaseSeconds)
    (timeout : 0 ≤ settings.stallTimeoutSeconds) (enough : budget settings bounds < settings.stallTimeoutSeconds) :
    NeverStalls settings bounds := by
  obtain ⟨retries, isRetries⟩ := Int.eq_ofNat_of_zero_le natural
  have counted {now : ℚ} {s : IngestorLoop} (reach : Reach (Step settings bounds) (initial settings now) s) :
      s.Counted settings :=
    reach.invariant _ ⟨rfl, by simp [initial]⟩ fun _ _ _ _ counted taken => counted.step natural taken
  refine ⟨fun now s reach noError running => ?_, fun now s reach => (counted reach).current.bounded natural,
    fun now s reach => (counted reach).calls⟩
  have alive : s.Alive :=
    reach.invariant _ ⟨rfl, fun isOut => by cases isOut⟩ fun _ _ _ _ alive taken => alive.step taken
  have within : Within settings bounds s.ingestor s.point :=
    reach.invariant (fun s => Within settings bounds s.ingestor s.point) ⟨rfl, Or.inl ⟨rfl, rfl⟩⟩
      fun _ _ _ _ within taken => within.step isRetries base taken
  have inLoop : s.point ≠ ended := by
    intro isOut
    rcases alive.out isOut with died | stopped
    · exact died noError
    · exact Bool.false_ne_true (running.symm.trans stopped)
  refine liveness_of_recent noError alive.thread ?_
  rcases within.recent isRetries base inLoop with now | recent <;> linarith

/-- The defaults, with five seconds for an attempt and one for a commit. -/
theorem defaults_never_stall : NeverStalls {} ⟨5, 1⟩ :=
  never_stalls (by decide) (by norm_num) (by norm_num) (by norm_num [budget])

/-- With `max_retries` at -1 a write call still makes one attempt. -/
theorem negative_retries_attempt :
    ¬∀ settings bounds, budget settings bounds < settings.stallTimeoutSeconds → NeverStalls settings bounds := by
  intro all
  let settings : PaceSettings := { batchSize := 1, maxRetries := -1 }
  let bounds : CallBounds := ⟨0, 0⟩
  have never := all settings bounds (by norm_num [budget, settings, bounds])
  have begun : Reach (Step settings bounds) (initial settings 0) (initial settings 0) := .refl
  have polled := begun.next .poll (.poll rfl ⟨by decide, by norm_num [initial, StreamIngestor.initial,
    StreamIngestor.apply, settings], rfl⟩)
  have received := polled.next (.pollReturns true) (.pollReturns rfl)
  have written := received.next (.batchEnds true) (.rows rfl fun polls => absurd polls.1 (by decide))
  have raised := written.next (.fails ⟨"OperationalError", by decide⟩) (.givesUp rfl fun seconds sleeps => by
    obtain ⟨allowed, _⟩ := sleeps_of_afterFailure sleeps
    simp [settings] at allowed)
  have bounded := (never.calls 0 _ raised ⟨[false], true⟩ (by simp [callEnds, dies, write, initial])).bounded
  simp [settings] at bounded

end IngestorLoop

end Amel
