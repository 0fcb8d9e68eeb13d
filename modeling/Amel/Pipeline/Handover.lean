import Amel.Pipeline.Fidelity
import Amel.Pipeline.Rerun
import Amel.Pipeline.TrainingRecords

namespace Amel

open Transition (Reach Guarded)

variable {pipeline : Pipeline} {id : String} {s after : World} {p next : DagRun} {action : RunAction}
  {time wider : Int → Prop} {e : Extraction} {reached later : Nat} {files : Staging}

/-- What lies in a staging directory goes back to an extraction and to
validations at times of a kind: the raw files, from `transform` on the valid
ones, from `write_silver` on the silver ones. -/
structure Staging.From (pipeline : Pipeline) (time : Int → Prop) (e : Extraction) (reached : Nat) (files : Staging) :
    Prop where
  rawFeatures : ∀ df, files.rawFeatures = some df → df = e.features.map (·.toRow)
  rawLabels : ∀ df, files.rawLabels = some df → df = e.labels.map (·.toRow)
  validFeatures : Task.transform.index ≤ reached → ∀ df, files.validFeatures = some df →
    ∃ now, time now ∧ df = (pipeline.validateFeatures now (e.features.map (·.toRow))).1
  validLabels : Task.transform.index ≤ reached → ∀ df, files.validLabels = some df →
    ∃ now, time now ∧ df = (pipeline.validateLabels now (e.labels.map (·.toRow))).1
  silverFeatures : Task.writeSilver.index ≤ reached → ∀ df, files.silverFeatures = some df →
    ∃ now, time now ∧ df = transformFeatures (pipeline.validateFeatures now (e.features.map (·.toRow))).1
  silverLabels : Task.writeSilver.index ≤ reached → ∀ df, files.silverLabels = some df →
    ∃ now, time now ∧ df = transformLabels (pipeline.validateLabels now (e.labels.map (·.toRow))).1

/-- The same files beside another task, past no stage that was not passed. -/
theorem Staging.From.beside (given : files.From pipeline time e reached)
    (validated : Task.transform.index ≤ later → Task.transform.index ≤ reached)
    (transformed : Task.writeSilver.index ≤ later → Task.writeSilver.index ≤ reached) :
    files.From pipeline time e later :=
  { given with
    validFeatures := fun passed => given.validFeatures (validated passed)
    validLabels := fun passed => given.validLabels (validated passed)
    silverFeatures := fun passed => given.silverFeatures (transformed passed)
    silverLabels := fun passed => given.silverLabels (transformed passed) }

theorem Staging.From.mono (given : files.From pipeline time e reached) (weaker : ∀ now, time now → wider now) :
    files.From pipeline wider e reached where
  rawFeatures := given.rawFeatures
  rawLabels := given.rawLabels
  validFeatures passed df atFile := (given.validFeatures passed df atFile).imp fun now => And.imp_left (weaker now)
  validLabels passed df atFile := (given.validLabels passed df atFile).imp fun now => And.imp_left (weaker now)
  silverFeatures passed df atFile := (given.silverFeatures passed df atFile).imp fun now => And.imp_left (weaker now)
  silverLabels passed df atFile := (given.silverLabels passed df atFile).imp fun now => And.imp_left (weaker now)

/-- A time at which the run may have acted. -/
def Pipeline.Since (pipeline : Pipeline) (id : String) (s : World) (now : Int) : Prop :=
  pipeline.upperBound id ≤ now ∧ now ≤ s.clock

theorem Pipeline.Since.mono {now : Int} (since : pipeline.Since id s now) (passes : s.clock ≤ after.clock) :
    pipeline.Since id after now :=
  ⟨since.1, since.2.trans passes⟩

/-- The files of a run go back to the extraction it has in its XCom. -/
structure DagRun.HandsOver (pipeline : Pipeline) (id : String) (s : World) (p : DagRun) : Prop where
  idle : p.position = .idle → p.extraction = none
  begun : p.position = .idle ∨ pipeline.upperBound id ≤ s.clock
  files : ∀ e task, p.extraction = some e → p.position.frontier = some task →
    (s.staging (Keys.safeRunId id)).From pipeline (pipeline.Since id s) e task.index

/-- A run acts only after its upper bound. -/
theorem Pipeline.Act.begun (taken : pipeline.Act id s p action after next)
    (begun : p.position = .idle ∨ pipeline.upperBound id ≤ s.clock) : pipeline.upperBound id ≤ after.clock := by
  obtain ⟨clock, -⟩ := taken.landing
  rw [clock]
  refine begun.elim (fun idle => ?_) fun since => since
  cases taken with
  | trigger _ due => exact due
  | retry atPosition => rw [idle] at atPosition; cases atPosition
  | giveUp atPosition => rw [idle] at atPosition; cases atPosition
  | clear atPosition => rw [idle] at atPosition; cases atPosition
  | _ atPosition => cases idle.symm.trans atPosition

/-- A step that leaves files and extraction as they are and passes neither
stage. -/
theorem DagRun.HandsOver.keep {was now : Task} (holds : p.HandsOver pipeline id s)
    (begun : pipeline.upperBound id ≤ after.clock) (clock : after.clock = s.clock)
    (before : p.position.frontier = some was) (onward : next.position.frontier = some now)
    (extraction : next.extraction = p.extraction)
    (staging : after.staging (Keys.safeRunId id) = s.staging (Keys.safeRunId id))
    (validated : Task.transform.index ≤ now.index → Task.transform.index ≤ was.index)
    (transformed : Task.writeSilver.index ≤ now.index → Task.writeSilver.index ≤ was.index) :
    next.HandsOver pipeline id after where
  idle isIdle := by rw [isIdle] at onward; cases onward
  begun := Or.inr begun
  files e task has atTask := by
    cases onward.symm.trans atTask
    rw [staging]
    exact ((holds.files e was (extraction ▸ has) before).beside validated transformed).mono
      fun _ since => since.mono clock.ge

theorem World.stage_self (s : World) (id : String) (change : Staging → Staging) :
    (s.stage id change).staging (Keys.safeRunId id) = change (s.staging (Keys.safeRunId id)) :=
  Function.update_self ..

theorem DagRun.HandsOver.step (holds : p.HandsOver pipeline id s) (taken : pipeline.Act id s p action after next) :
    next.HandsOver pipeline id after := by
  have begun := taken.begun holds.begun
  obtain ⟨clock, -⟩ := taken.landing
  cases taken with
  | trigger isIdle =>
    refine ⟨(fun impossible => by cases impossible), Or.inr begun, fun e task has => ?_⟩
    cases (holds.idle isIdle).symm.trans has
  | extractLabels atPosition =>
    refine ⟨(fun impossible => by cases impossible), Or.inr begun, fun e task has frontier => ?_⟩
    cases has
    cases frontier
    rw [World.stage_self]
    refine ⟨?_, ?_, fun passed => absurd passed (by decide), fun passed => absurd passed (by decide),
      fun passed => absurd passed (by decide), fun passed => absurd passed (by decide)⟩ <;> rintro df ⟨⟩ <;> rfl
  | validatePasses atPosition features labels =>
    refine ⟨(fun impossible => by cases impossible), Or.inr begun, fun e task has frontier => ?_⟩
    cases frontier
    have own := holds.files e .validate has (by rw [atPosition]; rfl)
    cases own.rawFeatures _ features
    cases own.rawLabels _ labels
    rw [Pipeline.writeValidated, World.putReport, World.stage_self]
    have sinceNow : pipeline.Since id s s.clock := ⟨begun, le_rfl⟩
    exact ⟨own.rawFeatures, own.rawLabels, fun _ df found => ⟨s.clock, sinceNow, (Option.some.inj found).symm⟩,
      fun _ df found => ⟨s.clock, sinceNow, (Option.some.inj found).symm⟩, fun passed => absurd passed (by decide),
      fun passed => absurd passed (by decide)⟩
  | validateFails atPosition =>
    refine ⟨holds.idle, Or.inr begun, fun e task has frontier => ?_⟩
    have own := holds.files e task has frontier
    rw [atPosition] at frontier
    cases frontier
    rw [Pipeline.writeValidated, World.putReport, World.stage_self]
    exact ⟨own.rawFeatures, own.rawLabels, fun passed => absurd passed (by decide),
      fun passed => absurd passed (by decide), fun passed => absurd passed (by decide),
      fun passed => absurd passed (by decide)⟩
  | transform atPosition features labels =>
    refine ⟨(fun impossible => by cases impossible), Or.inr begun, fun e task has frontier => ?_⟩
    cases frontier
    have own := holds.files e .transform has (by rw [atPosition]; rfl)
    obtain ⟨featuresThen, sinceFeatures, rfl⟩ := own.validFeatures le_rfl _ features
    obtain ⟨labelsThen, sinceLabels, rfl⟩ := own.validLabels le_rfl _ labels
    rw [World.stage_self]
    exact ⟨own.rawFeatures, own.rawLabels, fun _ => own.validFeatures le_rfl, fun _ => own.validLabels le_rfl,
      fun _ df found => ⟨featuresThen, sinceFeatures, (Option.some.inj found).symm⟩,
      fun _ df found => ⟨labelsThen, sinceLabels, (Option.some.inj found).symm⟩⟩
  | finish atPosition =>
    refine ⟨(fun impossible => by cases impossible), Or.inr begun, fun e task has frontier => ?_⟩
    rw [World.stage_self]
    refine ⟨?_, ?_, fun _ => ?_, fun _ => ?_, fun _ => ?_, fun _ => ?_⟩ <;> intro df impossible <;> cases impossible
  | retry atTask =>
    exact holds.keep begun clock (Position.frontier_of_task atTask) rfl rfl rfl (fun passed => passed) fun passed => passed
  | @giveUp task error callbackRuns atTask =>
    have staging : (if callbackRuns then pipeline.recordFailure s id task error else s).staging = s.staging := by
      split <;> rfl
    exact holds.keep begun clock (Position.frontier_of_task atTask) rfl rfl (congrFun staging _) (fun passed => passed)
      fun passed => passed
  | @clear task reached atTask earlier =>
    refine ⟨(fun impossible => by cases impossible), Or.inr begun, fun e task has frontier => ?_⟩
    cases frontier
    have kept : p.extraction = some e := by
      simp only [DagRun.clearFrom] at has
      split at has
      · exact has
      · cases has
    exact (holds.files e reached kept atTask).beside (fun passed => passed.trans earlier)
      fun passed => passed.trans earlier
  | _ atPosition => exact holds.keep begun clock (congrArg _ atPosition) rfl rfl rfl (by decide) (by decide)

/-- The runs that act are of some kind. -/
def Pipeline.Among (runs : String → Prop) (_ : Lake) : LakeAction → Prop
  | .inl _ => True
  | .inr (id, _) => runs id

theorem DagRun.HandsOver.other {other : String} {q : DagRun} (holds : q.HandsOver pipeline other s)
    (apart : Keys.safeRunId other ≠ Keys.safeRunId id) (taken : pipeline.Act id s p action after next) :
    q.HandsOver pipeline other after := by
  obtain ⟨clock, -⟩ := taken.landing
  refine ⟨holds.idle, clock ▸ holds.begun, fun e task has atTask => ?_⟩
  rw [taken.staging_other apart]
  exact (holds.files e task has atTask).mono fun _ since => since.mono clock.ge

theorem Pipeline.Act.commits_at (taken : pipeline.Act id s p .commitCurated after next) :
    p.position = .waiting .updateCuratedTables := by
  cases taken with
  | commitCurated waiting => exact waiting

/-- What a commit extracted is curated, unless the validation turned it away. -/
structure Commit.Delivered (pipeline : Pipeline) (s : World) (commit : Commit) : Prop where
  features : ∃ now, pipeline.Since commit.runId s now ∧ ∀ r ∈ commit.extraction.features,
    r.toRow ∈ (pipeline.validateFeatures now (commit.extraction.features.map (·.toRow))).1 →
      r.eventId ∈ s.curatedFeatures.map (·.eventId)
  labels : ∃ now, pipeline.Since commit.runId s now ∧ ∀ r ∈ commit.extraction.labels,
    r.toRow ∈ (pipeline.validateLabels now (commit.extraction.labels.map (·.toRow))).1 →
      r.eventId ∈ s.curatedLabels.map (·.eventId)

def World.Delivered (pipeline : Pipeline) (s : World) : Prop := ∀ commit ∈ s.commits, commit.Delivered pipeline s

theorem Commit.Delivered.grows {commit : Commit} (delivered : commit.Delivered pipeline s) (grows : s.Grows after)
    (passes : s.clock ≤ after.clock) : commit.Delivered pipeline after := by
  obtain ⟨⟨featuresThen, sinceFeatures, features⟩, labelsThen, sinceLabels, labels⟩ := delivered
  exact ⟨⟨featuresThen, sinceFeatures.mono passes, fun r member valid =>
      (grows.features.map _).subset (features r member valid)⟩,
    labelsThen, sinceLabels.mono passes, fun r member valid => (grows.labels.map _).subset (labels r member valid)⟩

theorem World.Delivered.step (delivered : s.Delivered pipeline) (holds : p.HandsOver pipeline id s)
    (taken : pipeline.Act id s p action after next) : after.Delivered pipeline := by
  intro commit member
  obtain ⟨clock, -⟩ := taken.landing
  rcases taken.curates with
    ⟨-, -, -, -, same⟩ | ⟨bounds, extraction, featuresDf, labelsDf, rfl, -, has, atFeatures, atLabels, rfl⟩
  · exact (delivered commit (same ▸ member)).grows taken.grows clock.ge
  · rcases List.mem_append.mp member with old | new
    · exact (delivered commit old).grows taken.grows clock.ge
    · cases List.mem_singleton.mp new
      have files := holds.files extraction _ has (congrArg Position.frontier taken.commits_at)
      obtain ⟨featuresThen, sinceFeatures, rfl⟩ := files.silverFeatures (by decide) _ atFeatures
      obtain ⟨labelsThen, sinceLabels, rfl⟩ := files.silverLabels (by decide) _ atLabels
      refine ⟨⟨featuresThen, sinceFeatures, fun r _ valid => ?_⟩, labelsThen, sinceLabels, fun r _ valid => ?_⟩
      · have silver : r.toRow.curated id ∈ (transformFeatures _).map (·.curated id) :=
          List.mem_map_of_mem ((List.mem_insertionSort _).mpr valid)
        rw [World.commitCurated, updateCuratedFeatures_fst]
        exact KeyedTable.key_mem_insertIgnore (·.eventId) silver
      · have silver : r.toRow.curated id ∈ (transformLabels _).map (·.curated id) :=
          List.mem_map_of_mem ((List.mem_insertionSort _).mpr valid)
        rw [World.commitCurated, updateCuratedLabels_fst]
        exact KeyedTable.key_mem_insertIgnore (·.eventId) silver

/-- The event ids in the curated table of a stream. -/
def Stream.curated (s : World) : Stream → List String
  | features => s.curatedFeatures.map (·.eventId)
  | labels => s.curatedLabels.map (·.eventId)

/-- The validation before the commit did not return the row as valid. -/
def Stream.TurnedAway (pipeline : Pipeline) (s : World) (commit : Commit) : (stream : Stream) → stream.Row → Prop
  | features => fun r => ∃ now, pipeline.Since commit.runId s now ∧
      r.toRow ∉ (pipeline.validateFeatures now (commit.extraction.features.map (·.toRow))).1
  | labels => fun r => ∃ now, pipeline.Since commit.runId s now ∧
      r.toRow ∉ (pipeline.validateLabels now (commit.extraction.labels.map (·.toRow))).1

theorem Commit.Delivered.extracted {commit : Commit} (delivered : commit.Delivered pipeline s) {stream : Stream}
    {r : stream.Row} (member : r ∈ stream.extracted commit.extraction) :
    stream.eventId r ∈ stream.curated s ∨ stream.TurnedAway pipeline s commit r := by
  obtain ⟨⟨featuresThen, sinceFeatures, features⟩, labelsThen, sinceLabels, labels⟩ := delivered
  cases stream with
  | features =>
    by_cases valid : r.toRow ∈ (pipeline.validateFeatures featuresThen (commit.extraction.features.map (·.toRow))).1
    · exact Or.inl (features r member valid)
    · exact Or.inr ⟨featuresThen, sinceFeatures, valid⟩
  | labels =>
    by_cases valid : r.toRow ∈ (pipeline.validateLabels labelsThen (commit.extraction.labels.map (·.toRow))).1
    · exact Or.inl (labels r member valid)
    · exact Or.inr ⟨labelsThen, sinceLabels, valid⟩

theorem LakeEvent.Happens.commits {event : LakeEvent} (happened : LakeEvent.Happens s event after) :
    after.commits = s.commits ∧ s.clock ≤ after.clock := by
  cases happened with
  | tick => exact ⟨rfl, Int.le_add_of_nonneg_right (Int.natCast_nonneg _)⟩
  | _ => exact ⟨rfl, le_rfl⟩

/-- While the runs have staging directories of their own, whatever is retried
or cleared, the committed extractions are delivered. -/
theorem Pipeline.delivered_of_reach {runs : String → Prop}
    (apart : ∀ a b, runs a → runs b → Keys.safeRunId a = Keys.safeRunId b → a = b) {clock : ℕ+} {lake : Lake}
    (reach : Reach (Guarded pipeline.Step (Among runs)) (.initial clock) lake) : lake.shared.Delivered pipeline := by
  refine (Fleet.invariant (World.Delivered pipeline) (fun id s p => runs id → p.HandsOver pipeline id s) reach
    ⟨List.forall_mem_nil _, fun _ _ => ⟨fun _ => rfl, Or.inl rfl, nofun⟩⟩ ?_ ?_).1
  · intro before event after _ happened delivered each
    obtain ⟨staging, -⟩ := happened.curated
    obtain ⟨commits, passes⟩ := happened.commits
    refine ⟨fun commit member => ?_, fun id runsId => ?_⟩
    · exact (delivered commit (commits ▸ member)).grows happened.grows passes
    · have holds := each id runsId
      refine ⟨holds.idle, holds.begun.imp_right fun since => since.trans passes, fun e task has atTask => ?_⟩
      rw [staging]
      exact (holds.files e task has atTask).mono fun _ since => since.mono passes
  · intro before id action after next acts taken delivered each
    have holds := each id acts
    exact ⟨delivered.step holds taken, fun _ => holds.step taken, fun other different runsOther =>
      (each other runsOther).other (fun same => different (apart _ _ runsOther acts same)) taken⟩

end Amel
