import Mathlib.Data.NNRat.Defs
import Amel.Ingestor.Batch
import Amel.Library.Transition
import Amel.Python.Format

namespace Amel

open Transition

/-- The text of an exception, which no exception here has empty. -/
def ErrorText := { text : String // text ≠ "" }

instance : DecidableEq ErrorText := inferInstanceAs (DecidableEq { text : String // text ≠ "" })

/-- How the broker answers an offset commit. -/
inductive CommitResult
  | accepted
  | rejected

/-- A `StreamIngestor` as its probes see it: the fields they read, the
clock, whether `_run`'s thread is alive (`none` before it is started), the
partitions the consumer holds, and the last commit attempt's result. -/
structure StreamIngestor where
  monotonic : ℚ
  assigned : Bool := false
  loopError : Option ErrorText := none
  lastCommitError : Option ErrorText := none
  commitFailures : Nat := 0
  lastProgressAt : ℚ
  stopSet : Bool := false
  threadAlive : Option Bool := none
  held : List TopicPartition := []
  lastCommit : Option CommitResult := none

inductive ProbeAction
  | start
  | stop
  | onAssign (partitions : List TopicPartition)
  | onRevoke (partitions : List TopicPartition)
  | onLost (partitions : List TopicPartition)
  | commitAccepted
  | commitRejected (error : ErrorText)
  | progress
  | loopDies (error : ErrorText)
  | threadEnds
  | passes (seconds : ℚ≥0)

namespace StreamIngestor

def initial (now : ℚ) : StreamIngestor := { monotonic := now, lastProgressAt := now }

/-- `liveness`. -/
def liveness (ingestor : StreamIngestor) (stallTimeoutSeconds : ℚ) : Bool × String :=
  match ingestor.loopError with
  | some error => (false, "consume loop died: " ++ error.1)
  | none =>
    let stalled := ingestor.monotonic - ingestor.lastProgressAt
    if ingestor.threadAlive = some false ∧ ingestor.stopSet = false then
      (false, "consume loop thread exited unexpectedly")
    else if ingestor.threadAlive ≠ none ∧ stallTimeoutSeconds < stalled then
      (false, "consume loop stalled for " ++ Python.fixed0 stalled ++ "s")
    else (true, "ok")

/-- `readiness`. -/
def readiness (ingestor : StreamIngestor) (stallTimeoutSeconds : ℚ) : Bool × String :=
  let (live, reason) := ingestor.liveness stallTimeoutSeconds
  if live = false then (false, reason)
  else if ingestor.assigned = false then (false, "no partition assignment")
  else match ingestor.lastCommitError with
    | some error => (false, "last offset commit rejected: " ++ error.1)
    | none => (true, "ready")

/-- What each event does to the fields. The group protocol is the eager
one: an assignment names all the partitions held, and a revocation or a
loss leaves none. -/
def apply (ingestor : StreamIngestor) : ProbeAction → StreamIngestor
  | .start => { ingestor with threadAlive := some true }
  | .stop => { ingestor with stopSet := true }
  | .onAssign partitions => { ingestor with assigned := true, held := partitions }
  | .onRevoke _ | .onLost _ => { ingestor with assigned := false, held := [] }
  | .commitAccepted => { ingestor with lastCommitError := none, lastCommit := some .accepted }
  | .commitRejected error =>
    { ingestor with
      commitFailures := ingestor.commitFailures + 1, lastCommitError := some error, lastCommit := some .rejected }
  | .progress => { ingestor with lastProgressAt := ingestor.monotonic }
  | .loopDies error => { ingestor with loopError := some error }
  | .threadEnds => { ingestor with threadAlive := some false }
  | .passes seconds => { ingestor with monotonic := ingestor.monotonic + seconds }

def Step (before : StreamIngestor) (action : ProbeAction) (after : StreamIngestor) : Prop :=
  after = before.apply action

/-- An assignment callback that hands over at least one partition. -/
def AssignsSome (_ : StreamIngestor) (action : ProbeAction) : Prop :=
  ∀ partitions, action = .onAssign partitions → partitions ≠ []

variable {ingestor : StreamIngestor} {stallTimeoutSeconds now : ℚ}

theorem readiness_iff : (ingestor.readiness stallTimeoutSeconds).1 = true ↔
    (ingestor.liveness stallTimeoutSeconds).1 = true ∧ ingestor.assigned = true ∧ ingestor.lastCommitError = none := by
  unfold readiness
  by_cases live : (ingestor.liveness stallTimeoutSeconds).1 = true
  · by_cases assigned : ingestor.assigned = true
    · cases error : ingestor.lastCommitError with
      | none => simp [live, assigned]
      | some text => simp [live, assigned]
    · simp [live, assigned]
  · simp [live]

/-- The flags say what they stand for. -/
structure Honest (ingestor : StreamIngestor) : Prop where
  assigned : ingestor.assigned = true ↔ ingestor.held ≠ []
  commit : ingestor.lastCommitError = none ↔ ingestor.lastCommit ≠ some .rejected

theorem Honest.step {after : StreamIngestor} {action : ProbeAction} (honest : ingestor.Honest)
    (taken : ingestor.Step action after) (assigns : ingestor.AssignsSome action) : after.Honest := by
  cases taken
  cases action with
  | onAssign partitions => exact ⟨iff_of_true rfl (assigns partitions rfl), honest.commit⟩
  | onRevoke | onLost => exact ⟨iff_of_false Bool.false_ne_true (by simp [apply]), honest.commit⟩
  | commitAccepted => exact ⟨honest.assigned, iff_of_true rfl (by simp [apply])⟩
  | commitRejected error => exact ⟨honest.assigned, iff_of_false (by simp [apply]) (by simp [apply])⟩
  | _ => exact ⟨honest.assigned, honest.commit⟩

/-- While every assignment hands over a partition, a ready ingestor is
live, holds a partition and has no rejected commit behind it. -/
theorem ready_honest (reach : Reach (Guarded Step AssignsSome) (initial now) ingestor) (stallTimeoutSeconds : ℚ)
    (ready : (ingestor.readiness stallTimeoutSeconds).1 = true) :
    (ingestor.liveness stallTimeoutSeconds).1 = true ∧ ingestor.held ≠ [] ∧
      ingestor.lastCommit ≠ some .rejected := by
  have base : (initial now).Honest :=
    ⟨iff_of_false Bool.false_ne_true (by simp [initial]), iff_of_true rfl (by simp [initial])⟩
  have honest := reach.invariant Honest base fun before action after _ holds taken => holds.step taken.1 taken.2
  obtain ⟨live, assigned, noError⟩ := readiness_iff.mp ready
  exact ⟨live, honest.assigned.mp assigned, honest.commit.mp noError⟩

/-- A started ingestor that is assigned one partition and commits. -/
theorem assigned_ready :
    let ingestor := ((((initial 0).apply .start).apply (.onAssign [⟨"higgs.features.v1", 0⟩])).apply
      .commitAccepted).apply (.passes 1)
    (ingestor.liveness 120).1 = true ∧ ingestor.held ≠ [] ∧ ingestor.lastCommit ≠ some .rejected := by
  have started : Reach (Guarded Step AssignsSome) (initial 0) _ := Reach.next .refl .start ⟨rfl, by rintro _ ⟨⟩⟩
  have assigned := started.next (.onAssign [⟨"higgs.features.v1", 0⟩]) ⟨rfl, by rintro _ ⟨⟩; simp⟩
  have committed := (assigned.next .commitAccepted ⟨rfl, by rintro _ ⟨⟩⟩).next (.passes 1) ⟨rfl, by rintro _ ⟨⟩⟩
  exact ready_honest committed 120 (by decide +kernel)

/-- A consumer more than there are partitions: its assignment is empty, and it is ready. -/
theorem ready_without_partition :
    ¬∀ (now : ℚ) (ingestor : StreamIngestor) (stallTimeoutSeconds : ℚ), Reach Step (initial now) ingestor →
      (ingestor.readiness stallTimeoutSeconds).1 = true →
      (ingestor.liveness stallTimeoutSeconds).1 = true ∧ ingestor.held ≠ [] ∧
        ingestor.lastCommit ≠ some .rejected := by
  intro honest
  have started : Reach Step (initial 0) _ := Reach.next .refl .start rfl
  have assigned := started.next (.onAssign []) rfl
  exact (honest 0 _ 120 assigned (by decide +kernel)).2.1 rfl

end StreamIngestor

end Amel
