import Amel.Pipeline.WatermarkInvariant

namespace Amel

open Transition (Reach Guarded)

variable {pipeline : Pipeline} {id : String} {s after origin : World} {p next : DagRun} {action : RunAction}

theorem Position.frontier_of_task {position : Position} {task : Task} (atTask : position.task = some task) :
    position.frontier = some task := by
  cases position <;> first | exact atTask | cases atTask

/-- From `build_training_dataset` on the curated commit lies behind a run. -/
def DagRun.Curated (p : DagRun) : Prop :=
  ∀ reached, p.position.frontier = some reached → Task.updateCuratedTables.index < reached.index →
    p.curated.isSome = true

theorem DagRun.Curated.step (curated : p.Curated) (taken : pipeline.Act id s p action after next) : next.Curated := by
  intro reached frontier beyond
  cases taken with
  | finishCurated => rfl
  | buildTraining atPosition | upsertTraining atPosition | putGold atPosition | skipGold atPosition
  | readWindows atPosition | postWindow atPosition | finishFeatureStore atPosition | recordSuccess atPosition
  | finish atPosition =>
    exact curated _ (by rw [atPosition]; rfl) (by decide)
  | validateFails => exact curated reached frontier beyond
  | retry atTask | giveUp atTask =>
    cases frontier
    exact curated reached (Position.frontier_of_task atTask) beyond
  | clear cleared early =>
    cases frontier
    have kept : (p.clearFrom reached).curated = p.curated := if_pos beyond
    rw [kept]
    exact curated _ cleared (by omega)
  | _ =>
    cases frontier
    exact absurd beyond (by decide)

/-- A run that succeeded has the watermarks at or above its upper bound. -/
theorem Pipeline.watermark_of_succeeded {clock : ℕ+} {lake : Lake}
    (reach : Reach pipeline.Step (.initial clock) lake) (succeeded : (lake.processes id).position = .succeeded)
    (stream : Stream) : pipeline.upperBound id ≤ lake.shared.watermark stream := by
  have curated := Fleet.invariant (fun _ => True) (fun _ _ p => p.Curated) reach.guardTrivially
    ⟨trivial, fun _ _ atTask => nomatch atTask⟩ (fun _ _ _ each => ⟨trivial, each⟩)
    (fun {_ id _ _ _} _ taken _ each => ⟨trivial, (each id).step taken, fun other _ => each other⟩)
  have done := curated.2 id .emitPipelineMetadata (by rw [succeeded]; rfl) (by decide)
  exact ((watermarked_of_reach reach).2 id).committed (Or.inl done) stream

/-- A bucket once the two objects of a run hold no rows. -/
def Pipeline.emptied (pipeline : Pipeline) (id : String) (bucket : String → Option Frame) : String → Option Frame :=
  Function.update (Function.update bucket (pipeline.bronzeKeys id).1 (some (.features [])))
    (pipeline.bronzeKeys id).2 (some (.labels []))

namespace Pipeline

variable {bucket : String → Option Frame}

theorem bronzeKeys_ne (pipeline : Pipeline) (id : String) : (pipeline.bronzeKeys id).1 ≠ (pipeline.bronzeKeys id).2 :=
  Keys.datasetKey_ne _ _ _ _

theorem emptied_putFeatures : pipeline.emptied id
    (Function.update bucket (pipeline.bronzeKeys id).1 (some (.features []))) = pipeline.emptied id bucket := by
  rw [emptied, emptied, Function.update_idem]

theorem emptied_putLabels : pipeline.emptied id
    (Function.update bucket (pipeline.bronzeKeys id).2 (some (.labels []))) = pipeline.emptied id bucket := by
  have different := pipeline.bronzeKeys_ne id
  rw [emptied, emptied, Function.update_comm different, Function.update_idem, Function.update_comm different.symm]

theorem putLabels_of_features (features : bucket (pipeline.bronzeKeys id).1 = some (.features [])) :
    Function.update bucket (pipeline.bronzeKeys id).2 (some (.labels [])) = pipeline.emptied id bucket := by
  rw [emptied, ← features, Function.update_eq_self]

theorem emptied_features (pipeline : Pipeline) (id : String) (bucket : String → Option Frame) :
    pipeline.emptied id bucket (pipeline.bronzeKeys id).1 = some (.features []) := by
  rw [emptied, Function.update_of_ne (pipeline.bronzeKeys_ne id), Function.update_self]

theorem emptied_labels (pipeline : Pipeline) (id : String) (bucket : String → Option Frame) :
    pipeline.emptied id bucket (pipeline.bronzeKeys id).2 = some (.labels []) := by
  rw [emptied, Function.update_self]

theorem putFeatures_of_emptied {source : String → Option Frame} (empty : bucket = pipeline.emptied id source) :
    Function.update bucket (pipeline.bronzeKeys id).1 (some (.features [])) = pipeline.emptied id source := by
  rw [empty, ← pipeline.emptied_features id source, Function.update_eq_self]

theorem emptied_eq_self_iff : pipeline.emptied id bucket = bucket ↔
    bucket (pipeline.bronzeKeys id).1 = some (.features []) ∧
      bucket (pipeline.bronzeKeys id).2 = some (.labels []) := by
  constructor
  · intro same
    rw [← same]
    exact ⟨emptied_features .., emptied_labels ..⟩
  · rintro ⟨features, labels⟩
    rw [← putLabels_of_features features, ← labels, Function.update_eq_self]

end Pipeline

/-- What a task of a re-run leaves behind: no rows, wherever it writes. -/
def Task.LeavesEmpty (pipeline : Pipeline) (id : String) (origin s : World) : Task → Prop
  | extractNewRecords =>
    (s.staging (Keys.safeRunId id)).rawFeatures = some [] ∧ (s.staging (Keys.safeRunId id)).rawLabels = some []
  | writeBronze => s.bronze = pipeline.emptied id origin.bronze
  | validate =>
    (s.staging (Keys.safeRunId id)).validFeatures = some [] ∧ (s.staging (Keys.safeRunId id)).validLabels = some []
  | transform =>
    (s.staging (Keys.safeRunId id)).silverFeatures = some [] ∧ (s.staging (Keys.safeRunId id)).silverLabels = some []
  | writeSilver => s.silver = pipeline.emptied id origin.silver
  | _ => True

/-- What a re-run is sure of between two effects of one attempt, and at its
end. -/
def Position.Halfway (pipeline : Pipeline) (id : String) (origin s : World) : Position → Prop
  | featuresWatermarkRead featuresWatermark => pipeline.upperBound id ≤ featuresWatermark
  | featuresExtracted features _ => features = []
  | bronzeFeaturesPut => s.bronze (pipeline.bronzeKeys id).1 = some (.features [])
  | silverFeaturesPut => s.silver (pipeline.bronzeKeys id).1 = some (.features [])
  | succeeded => s.bronze = pipeline.emptied id origin.bronze ∧ s.silver = pipeline.emptied id origin.silver
  | _ => True

theorem Task.LeavesEmpty.congr {task : Task} (empty : task.LeavesEmpty pipeline id origin s)
    (bronze : after.bronze = s.bronze) (silver : after.silver = s.silver) (staging : after.staging = s.staging) :
    task.LeavesEmpty pipeline id origin after := by
  revert empty
  cases task <;> simp only [LeavesEmpty, bronze, silver, staging, imp_self]

theorem Position.Halfway.congr {position : Position} (halfway : position.Halfway pipeline id origin s)
    (bronze : after.bronze = s.bronze) (silver : after.silver = s.silver) :
    position.Halfway pipeline id origin after := by
  revert halfway
  cases position <;> simp only [Halfway, bronze, silver, imp_self]

/-- What a re-run leaves as it was in the world it started in. -/
structure World.Unmoved (pipeline : Pipeline) (id : String) (origin s : World) : Prop where
  curatedFeatures : s.curatedFeatures = origin.curatedFeatures
  curatedLabels : s.curatedLabels = origin.curatedLabels
  watermarks : s.watermarks = origin.watermarks
  bronze : pipeline.emptied id s.bronze = pipeline.emptied id origin.bronze
  silver : pipeline.emptied id s.silver = pipeline.emptied id origin.silver

structure Pipeline.Rerun (pipeline : Pipeline) (id : String) (origin s : World) (p : DagRun) : Prop where
  unmoved : World.Unmoved pipeline id origin s
  bounds : ∀ bounds, p.bounds = some bounds →
    bounds.upperBound = pipeline.upperBound id ∧ ∀ stream, bounds.upperBound ≤ bounds.lower stream
  halfway : p.position.Halfway pipeline id origin s
  left : ∀ task, p.position.task = some task → ∀ earlier : Task, earlier.index < task.index →
    earlier.LeavesEmpty pipeline id origin s

/-- An empty window returns no rows. -/
theorem selectFeatures_of_le {landing : Landing} {watermark upperBound : Int} (below : upperBound ≤ watermark) :
    selectFeatures landing watermark upperBound = [] := by
  refine List.eq_nil_iff_forall_not_mem.mpr fun r member => ?_
  obtain ⟨-, late, early⟩ := mem_selectFeatures.mp member
  omega

theorem selectLabels_of_le {landing : Landing} {watermark upperBound : Int} (below : upperBound ≤ watermark) :
    selectLabels landing watermark upperBound = [] := by
  refine List.eq_nil_iff_forall_not_mem.mpr fun r member => ?_
  obtain ⟨-, late, early⟩ := mem_selectLabels.mp member
  omega

theorem Task.index_injective : Function.Injective Task.index := by
  intro a b same
  cases a <;> cases b <;> first | rfl | cases same

/-- The task whose attempt ends well with the action. -/
def RunAction.completes : RunAction → Option Task
  | readLabelsWatermark => some .determineHighWatermark
  | extractLabels => some .extractNewRecords
  | putBronzeLabels => some .writeBronze
  | validatePasses => some .validate
  | transform => some .transform
  | putSilverLabels => some .writeSilver
  | finishCurated => some .updateCuratedTables
  | putGold | skipGold => some .buildTrainingDataset
  | finishFeatureStore => some .updateFeatureStore
  | finish => some .emitPipelineMetadata
  | _ => none

/-- A run moves on by one task at most, and not before that is complete. -/
theorem Pipeline.Act.advances (taken : pipeline.Act id s p action after next) (goesOn : ∀ task, action ≠ .clear task)
    {task : Task} (atTask : next.position.task = some task) :
    task.index = 0 ∨ ∃ before, p.position.task = some before ∧
      (task.index ≤ before.index ∨ task.index = before.index + 1 ∧ action.completes = some before) := by
  cases taken with
  | trigger | readFeaturesWatermark =>
    cases atTask
    exact Or.inl rfl
  | readLabelsWatermark was | extractLabels was | putBronzeLabels was | validatePasses was | transform was
  | putSilverLabels was | finishCurated was | putGold was | skipGold was | finishFeatureStore was =>
    cases atTask
    exact Or.inr ⟨_, by rw [was]; rfl, Or.inr ⟨rfl, rfl⟩⟩
  | extractFeatures was | putBronzeFeatures was | putSilverFeatures was | commitCurated was | buildTraining was
  | upsertTraining was | readWindows was | postWindow was | recordSuccess was =>
    cases atTask
    exact Or.inr ⟨_, by rw [was]; rfl, Or.inl le_rfl⟩
  | validateFails => exact Or.inr ⟨task, atTask, Or.inl le_rfl⟩
  | retry was =>
    cases atTask
    exact Or.inr ⟨_, was, Or.inl le_rfl⟩
  | clear => exact absurd rfl (goesOn _)
  | giveUp | finish => cases atTask

/-- A curated commit without rows and with watermarks that stand there
already only goes on record. -/
theorem World.commitCurated_nil {bounds : WatermarkBounds} {extraction : Extraction}
    (later : Watermarks.epoch < bounds.upperBound) (covered : ∀ stream, bounds.upperBound ≤ s.watermark stream) :
    s.commitCurated id bounds extraction [] [] = { s with commits := s.commits ++ [⟨id, bounds, extraction⟩] } := by
  have features : s.watermarks.advance featuresPipeline bounds.upperBound = s.watermarks :=
    s.watermarks.advance_of_le later (covered .features)
  have labels : s.watermarks.advance labelsPipeline bounds.upperBound = s.watermarks :=
    s.watermarks.advance_of_le later (covered .labels)
  rw [commitCurated, updateCuratedFeatures_fst, updateCuratedLabels_fst, features, labels]
  rfl

namespace Pipeline.Rerun

variable (rerun : pipeline.Rerun id origin s p)
include rerun

theorem noRows {bounds : WatermarkBounds} {features : List HiggsFeatureEvent}
    {openAtFeatures : List LandingTransaction} (was : p.position = .featuresExtracted features openAtFeatures)
    (atBounds : p.bounds = some bounds) :
    features = [] ∧ selectLabels s.landing bounds.labelsWatermark bounds.upperBound = [] := by
  have halfway := rerun.halfway
  rw [was] at halfway
  exact ⟨halfway, selectLabels_of_le ((rerun.bounds bounds atBounds).2 .labels)⟩

theorem rawFeatures {task : Task} (atTask : p.position.task = some task) (later : 1 < task.index)
    {df : List FeatureRow} (staged : (s.staging (Keys.safeRunId id)).rawFeatures = some df) : df = [] :=
  Option.some.inj (staged.symm.trans (rerun.left task atTask .extractNewRecords later).1)

theorem rawLabels {task : Task} (atTask : p.position.task = some task) (later : 1 < task.index)
    {df : List LabelRow} (staged : (s.staging (Keys.safeRunId id)).rawLabels = some df) : df = [] :=
  Option.some.inj (staged.symm.trans (rerun.left task atTask .extractNewRecords later).2)

theorem silverFeatures {task : Task} (atTask : p.position.task = some task) (later : 4 < task.index)
    {df : List FeatureRow} (staged : (s.staging (Keys.safeRunId id)).silverFeatures = some df) : df = [] :=
  Option.some.inj (staged.symm.trans (rerun.left task atTask .transform later).1)

theorem silverLabels {task : Task} (atTask : p.position.task = some task) (later : 4 < task.index)
    {df : List LabelRow} (staged : (s.staging (Keys.safeRunId id)).silverLabels = some df) : df = [] :=
  Option.some.inj (staged.symm.trans (rerun.left task atTask .transform later).2)

/-- What is empty stays empty until the staged files go, and what a
completed task leaves is empty. -/
theorem leaves (taken : pipeline.Act id s p action after next) (goesOn : action ≠ .finish) (task : Task)
    (empty : task.LeavesEmpty pipeline id origin s ∨ action.completes = some task) :
    task.LeavesEmpty pipeline id origin after := by
  cases taken with
  | finish => exact absurd rfl goesOn
  | extractLabels was atBounds =>
    obtain ⟨rfl, noLabels⟩ := rerun.noRows was atBounds
    rw [noLabels]
    cases task with
    | extractNewRecords => simp only [Task.LeavesEmpty, World.stage, Function.update_self, List.map_nil, and_self]
    | validate | transform =>
      simpa only [Task.LeavesEmpty, World.stage, Function.update_self] using empty.resolve_right (by rintro ⟨⟩)
    | writeBronze | writeSilver => simpa only [Task.LeavesEmpty, World.stage] using empty.resolve_right (by rintro ⟨⟩)
    | _ => trivial
  | validatePasses was features labels | validateFails was features labels =>
    cases rerun.rawFeatures (by rw [was]; rfl) (by decide) features
    cases rerun.rawLabels (by rw [was]; rfl) (by decide) labels
    cases task with
    | validate => simp only [Task.LeavesEmpty, writeValidated, World.stage, World.putReport, Function.update_self,
        validateFeatures, validateLabels, validate_nil, and_self]
    | extractNewRecords | transform | writeBronze | writeSilver =>
      simpa only [Task.LeavesEmpty, writeValidated, World.stage, World.putReport, Function.update_self] using
        empty.resolve_right (by rintro ⟨⟩)
    | _ => trivial
  | transform was features labels =>
    have valid := rerun.left _ (by rw [was]; rfl) .validate (by decide)
    cases features.symm.trans valid.1
    cases labels.symm.trans valid.2
    cases task with
    | transform => simp only [Task.LeavesEmpty, World.stage, Function.update_self, transformFeatures, transformLabels,
        List.insertionSort_nil, and_self]
    | extractNewRecords | validate =>
      simpa only [Task.LeavesEmpty, World.stage, Function.update_self] using empty.resolve_right (by rintro ⟨⟩)
    | writeBronze | writeSilver => simpa only [Task.LeavesEmpty, World.stage] using empty.resolve_right (by rintro ⟨⟩)
    | _ => trivial
  | putBronzeFeatures was staged =>
    cases rerun.rawFeatures (by rw [was]; rfl) (by decide) staged
    have kept := empty.resolve_right (by rintro ⟨⟩)
    cases task with
    | writeBronze => exact putFeatures_of_emptied kept
    | _ => exact kept
  | putBronzeLabels was staged =>
    cases rerun.rawLabels (by rw [was]; rfl) (by decide) staged
    have halfway := rerun.halfway
    rw [was] at halfway
    cases task with
    | writeBronze => exact (putLabels_of_features halfway).trans rerun.unmoved.bronze
    | _ => exact empty.resolve_right (by rintro ⟨⟩)
  | putSilverFeatures was staged =>
    cases rerun.silverFeatures (by rw [was]; rfl) (by decide) staged
    have kept := empty.resolve_right (by rintro ⟨⟩)
    cases task with
    | writeSilver => exact putFeatures_of_emptied kept
    | _ => exact kept
  | putSilverLabels was staged =>
    cases rerun.silverLabels (by rw [was]; rfl) (by decide) staged
    have halfway := rerun.halfway
    rw [was] at halfway
    cases task with
    | writeSilver => exact (putLabels_of_features halfway).trans rerun.unmoved.silver
    | _ => exact empty.resolve_right (by rintro ⟨⟩)
  | giveUp =>
    have kept := empty.resolve_right (by rintro ⟨⟩)
    split
    · exact kept.congr rfl rfl rfl
    · exact kept
  | readLabelsWatermark | finishCurated | putGold | skipGold | finishFeatureStore =>
    cases task with
    | extractNewRecords | writeBronze | validate | transform | writeSilver => exact empty.resolve_right (by rintro ⟨⟩)
    | _ => trivial
  | _ =>
    have kept := empty.resolve_right (by rintro ⟨⟩)
    exact kept.congr rfl rfl rfl

theorem buckets (taken : pipeline.Act id s p action after next) :
    pipeline.emptied id after.bronze = pipeline.emptied id s.bronze ∧
      pipeline.emptied id after.silver = pipeline.emptied id s.silver := by
  cases taken with
  | putBronzeFeatures was staged =>
    cases rerun.rawFeatures (by rw [was]; rfl) (by decide) staged
    exact ⟨emptied_putFeatures, rfl⟩
  | putBronzeLabels was staged =>
    cases rerun.rawLabels (by rw [was]; rfl) (by decide) staged
    exact ⟨emptied_putLabels, rfl⟩
  | putSilverFeatures was staged =>
    cases rerun.silverFeatures (by rw [was]; rfl) (by decide) staged
    exact ⟨rfl, emptied_putFeatures⟩
  | putSilverLabels was staged =>
    cases rerun.silverLabels (by rw [was]; rfl) (by decide) staged
    exact ⟨rfl, emptied_putLabels⟩
  | giveUp => split <;> exact ⟨rfl, rfl⟩
  | _ => simp only [World.stage, World.putReport, World.commitCurated, World.upsertTraining, World.putGold,
      World.recordPipelineRun, writeValidated, Pipeline.recordSuccess, and_self]

theorem curatedTables (covered : ∀ stream, pipeline.upperBound id ≤ origin.watermark stream)
    (taken : pipeline.Act id s p action after next) :
    after.curatedFeatures = s.curatedFeatures ∧ after.curatedLabels = s.curatedLabels ∧
      after.watermarks = s.watermarks := by
  cases taken with
  | commitCurated was atBounds _ stagedFeatures stagedLabels =>
    cases rerun.silverFeatures (by rw [was]; rfl) (by decide) stagedFeatures
    cases rerun.silverLabels (by rw [was]; rfl) (by decide) stagedLabels
    have upper := (rerun.bounds _ atBounds).1
    rw [World.commitCurated_nil]
    · exact ⟨rfl, rfl, rfl⟩
    · rw [upper]
      exact pipeline.upperBound_after id
    · intro stream
      rw [upper, World.watermark, rerun.unmoved.watermarks]
      exact covered stream
  | giveUp => split <;> exact ⟨rfl, rfl, rfl⟩
  | _ => simp only [World.stage, World.putBronze, World.putSilver, World.putReport, World.upsertTraining,
      World.putGold, World.recordPipelineRun, writeValidated, Pipeline.recordSuccess, and_self]

theorem halfway_step (covered : ∀ stream, pipeline.upperBound id ≤ origin.watermark stream)
    (taken : pipeline.Act id s p action after next) : next.position.Halfway pipeline id origin after := by
  cases taken with
  | readFeaturesWatermark =>
    refine (covered .features).trans ?_
    rw [rerun.unmoved.watermarks]
    rfl
  | extractFeatures _ atBounds => exact selectFeatures_of_le ((rerun.bounds _ atBounds).2 .features)
  | putBronzeFeatures was staged =>
    cases rerun.rawFeatures (by rw [was]; rfl) (by decide) staged
    simp only [Position.Halfway, World.putBronze, bronzeKeys, Keys.bronzeKey, Function.update_self]
  | putSilverFeatures was staged =>
    cases rerun.silverFeatures (by rw [was]; rfl) (by decide) staged
    simp only [Position.Halfway, World.putSilver, bronzeKeys, Keys.bronzeKey, Keys.silverKey, Function.update_self]
  | validateFails was =>
    rw [was]
    trivial
  | finish was =>
    have left := rerun.left .emitPipelineMetadata (by rw [was]; rfl)
    exact ⟨left .writeBronze (by decide), left .writeSilver (by decide)⟩
  | _ => trivial

theorem step (covered : ∀ stream, pipeline.upperBound id ≤ origin.watermark stream)
    (goesOn : ∀ task, action ≠ .clear task) (taken : pipeline.Act id s p action after next) :
    pipeline.Rerun id origin after next := by
  have unmoved := rerun.unmoved
  obtain ⟨bronze, silver⟩ := rerun.buckets taken
  obtain ⟨curatedFeatures, curatedLabels, watermarks⟩ := rerun.curatedTables covered taken
  refine ⟨⟨curatedFeatures.trans unmoved.curatedFeatures, curatedLabels.trans unmoved.curatedLabels,
    watermarks.trans unmoved.watermarks, bronze.trans unmoved.bronze, silver.trans unmoved.silver⟩,
    fun bounds atBounds => ?_, rerun.halfway_step covered taken, fun task atTask earlier before => ?_⟩
  · rcases taken.bounds with same | none | ⟨featuresWatermark, read, fresh⟩
    · exact rerun.bounds bounds (same ▸ atBounds)
    · cases none.symm.trans atBounds
    · cases fresh.symm.trans atBounds
      refine ⟨rfl, fun stream => ?_⟩
      have halfway := rerun.halfway
      rw [read] at halfway
      cases stream with
      | features => exact halfway
      | labels =>
        refine (covered .labels).trans ?_
        rw [World.watermark, ← unmoved.watermarks]
        rfl
  · have unfinished : action ≠ .finish := by
      rintro rfl
      cases taken
      cases atTask
    refine rerun.leaves taken unfinished earlier ?_
    rcases taken.advances goesOn atTask with zero | ⟨current, was, same | ⟨on, complete⟩⟩
    · omega
    · exact Or.inl (rerun.left current was earlier (by omega))
    · rcases Nat.lt_succ_iff_lt_or_eq.mp (on ▸ before) with less | equal
      · exact Or.inl (rerun.left current was earlier less)
      · exact Or.inr (Task.index_injective equal ▸ complete)

omit rerun in
theorem cleared (s : World) (p : DagRun) :
    pipeline.Rerun id s s (p.clearFrom .determineHighWatermark) where
  unmoved := ⟨rfl, rfl, rfl, rfl, rfl⟩
  bounds _ atBounds := nomatch atBounds
  halfway := trivial
  left task atTask _ before := by
    cases atTask
    exact absurd before (Nat.not_lt_zero _)

theorem happens {event : LakeEvent} (happened : LakeEvent.Happens s event after) :
    pipeline.Rerun id origin after p := by
  have files : after.bronze = s.bronze ∧ after.silver = s.silver ∧ after.staging = s.staging ∧
      after.curatedFeatures = s.curatedFeatures ∧ after.curatedLabels = s.curatedLabels ∧
      after.watermarks = s.watermarks := by
    cases happened <;> exact ⟨rfl, rfl, rfl, rfl, rfl, rfl⟩
  obtain ⟨bronze, silver, staging, curatedFeatures, curatedLabels, watermarks⟩ := files
  obtain ⟨unmoved, bounds, halfway, left⟩ := rerun
  exact ⟨⟨curatedFeatures.trans unmoved.1, curatedLabels.trans unmoved.2, watermarks.trans unmoved.3,
    bronze ▸ unmoved.4, silver ▸ unmoved.5⟩, bounds, halfway.congr bronze silver,
    fun task atTask earlier before => (left task atTask earlier before).congr bronze silver staging⟩

end Pipeline.Rerun

/-- Nothing lands and only the run itself acts, until it ends. -/
def Pipeline.Rerunning (id : String) : Lake → LakeAction → Prop
  | _, .inl event => ∀ transaction, event ≠ .commitLanding transaction
  | _, .inr (runId, action) => runId = id ∧ ∀ task, action ≠ .clear task

/-- A re-run of a run that succeeded leaves the objects, the curated tables
and the watermarks as they were exactly when the run's objects hold no rows:
its window lies below the watermarks by now. -/
theorem Pipeline.rerun_unchanged_iff {clock : ℕ+} {lake cleared again : Lake}
    (reach : Reach pipeline.Step (.initial clock) lake) (succeeded : (lake.processes id).position = .succeeded)
    (clears : pipeline.Step lake (.inr (id, .clear .determineHighWatermark)) cleared)
    (rerun : Reach (Guarded pipeline.Step (Rerunning id)) cleared again)
    (ended : (again.processes id).position = .succeeded) :
    (again.shared.bronze = lake.shared.bronze ∧ again.shared.silver = lake.shared.silver ∧
      again.shared.curatedFeatures = lake.shared.curatedFeatures ∧
      again.shared.curatedLabels = lake.shared.curatedLabels ∧ again.shared.watermarks = lake.shared.watermarks) ↔
    (lake.shared.bronze (pipeline.bronzeKeys id).1 = some (.features []) ∧
      lake.shared.bronze (pipeline.bronzeKeys id).2 = some (.labels [])) ∧
      lake.shared.silver (pipeline.silverKeys id).1 = some (.features []) ∧
      lake.shared.silver (pipeline.silverKeys id).2 = some (.labels []) := by
  have covered := watermark_of_succeeded reach succeeded
  have start : pipeline.Rerun id lake.shared cleared.shared (cleared.processes id) := by
    cases clears with
    | process taken =>
      cases taken
      simp only [Function.update_self]
      exact Rerun.cleared _ _
  have through := rerun.invariant
      (fun state => pipeline.Rerun id lake.shared state.shared (state.processes id)) start <| by
    rintro before action after - holds ⟨taken, guard⟩
    cases taken with
    | environment happened => exact holds.happens happened
    | process taken =>
      obtain ⟨rfl, goesOn⟩ := guard
      simp only [Function.update_self]
      exact holds.step covered goesOn taken
  have halfway := through.halfway
  rw [ended] at halfway
  obtain ⟨bronze, silver⟩ := halfway
  have others := And.intro through.unmoved.curatedFeatures
    (And.intro through.unmoved.curatedLabels through.unmoved.watermarks)
  rw [bronze, silver, emptied_eq_self_iff, emptied_eq_self_iff]
  exact and_congr_right fun _ => and_iff_left others

/-- Each run that succeeded has a re-run, if the gate lets it pass. -/
theorem Pipeline.rerun_succeeds (processes : String → DagRun) (succeeded : p.position = .succeeded)
    (gate : pipeline.GatePasses s (pipeline.rawFeatures id s) (pipeline.rawLabels id s)) :
    ∃ cleared again : Lake,
      pipeline.Step ⟨s, Function.update processes id p⟩ (.inr (id, .clear .determineHighWatermark)) cleared ∧
      Reach (Guarded pipeline.Step (Rerunning id)) cleared again ∧ (again.processes id).position = .succeeded ∧
      again.shared.bronze = Function.update
        (Function.update s.bronze (pipeline.bronzeKeys id).1 (some (.features (pipeline.rawFeatures id s))))
        (pipeline.bronzeKeys id).2 (some (.labels (pipeline.rawLabels id s))) := by
  have clears : pipeline.Step ⟨s, Function.update processes id p⟩ (.inr (id, .clear .determineHighWatermark))
      ⟨s, Function.update processes id (p.clearFrom .determineHighWatermark)⟩ := by
    have taken : pipeline.Act id s (Function.update processes id p id) (.clear .determineHighWatermark) s
        (p.clearFrom .determineHighWatermark) := by
      rw [Function.update_self]
      exact .clear (by rw [succeeded]; rfl) (Nat.zero_le _)
    rw [← Function.update_idem p (p.clearFrom .determineHighWatermark) processes]
    exact .process taken
  obtain ⟨after, next, completes, completed, -, recorded, -⟩ :=
    @complete_alone pipeline id s (p.clearFrom .determineHighWatermark) rfl gate
  have start : Reach (Guarded pipeline.Step (Rerunning id))
      ⟨s, Function.update processes id (p.clearFrom .determineHighWatermark)⟩ _ := .refl
  have forward := Fleet.reach_alone start completes fun lake action _ isForward =>
    ⟨rfl, fun task same => by subst same; exact isForward⟩
  have finished := Fleet.reach_act forward (.finish recorded) ⟨rfl, nofun⟩
  refine ⟨_, _, clears, finished, ?_, completed.bronze⟩
  simp only [Function.update_self]

/-- A run that found nothing may be re-run. -/
theorem Pipeline.empty_rerun_unchanged :
    let pipeline := Pipeline.accepting (fun _ => 10) fun _ => by decide
    ∃ lake cleared again, Reach pipeline.Step (.initial 20) lake ∧
      pipeline.Step lake (.inr ("first", .clear .determineHighWatermark)) cleared ∧
      Reach (Guarded pipeline.Step (Rerunning "first")) cleared again ∧
      again.shared.bronze = lake.shared.bronze ∧ again.shared.watermarks = lake.shared.watermarks := by
  intro pipeline
  have start : Reach (Guarded pipeline.Step fun _ _ => True) (.initial 20) _ := Lake.reach_initial 20 "first"
  obtain ⟨after, next, reach, completed, -, succeeded⟩ := reach_succeeded start rfl (by decide : (10 : Int) ≤ 20)
    (gatePasses_accepting _ _ _ _ _) (fun _ _ => trivial)
  obtain ⟨cleared, again, clears, rerun, ended, -⟩ :=
    rerun_succeeds (fun _ => {}) succeeded (gatePasses_accepting _ _ _ _ _)
  have bronze : after.bronze = pipeline.emptied "first" fun _ => none := completed.bronze
  have silver : after.silver = pipeline.emptied "first" fun _ => none := completed.silver
  have unchanged := (rerun_unchanged_iff reach.forget_guard (by simp only [Function.update_self, succeeded])
    clears rerun ended).mpr (by
      rw [bronze, silver]
      exact ⟨⟨emptied_features .., emptied_labels ..⟩, emptied_features .., emptied_labels ..⟩)
  exact ⟨_, cleared, again, reach.forget_guard, clears, rerun, unchanged.1, unchanged.2.2.2.2⟩

/-- One row, which the run extracts, and which its re-run does not find
again: it replaces the run's object by an empty one. -/
theorem Pipeline.rerun_empties_bronze :
    ¬∀ (pipeline : Pipeline) (clock : ℕ+) (lake cleared again : Lake) (id : String),
      Reach pipeline.Step (.initial clock) lake → (lake.processes id).position = .succeeded →
      pipeline.Step lake (.inr (id, .clear .determineHighWatermark)) cleared →
      Reach (Guarded pipeline.Step (Rerunning id)) cleared again → (again.processes id).position = .succeeded →
      again.shared.bronze = lake.shared.bronze ∧ again.shared.silver = lake.shared.silver ∧
        again.shared.curatedFeatures = lake.shared.curatedFeatures ∧
        again.shared.curatedLabels = lake.shared.curatedLabels ∧
        again.shared.watermarks = lake.shared.watermarks := by
  intro unchanged
  let pipeline := Pipeline.accepting (fun _ => 25) fun _ => by decide
  let row := HiggsFeatureEvent.of "feature" "higgs-000000000" 10
  have start : Reach (Guarded pipeline.Step fun _ _ => True) (.initial 20) _ :=
    Lake.reach_landed 20 "first" [row] [] 10 fun _ _ => trivial
  obtain ⟨after, next, reach, completed, -, succeeded⟩ := reach_succeeded start rfl (by decide : (25 : Int) ≤ 30)
    (gatePasses_accepting _ _ _ _ _) (fun _ _ => trivial)
  obtain ⟨cleared, again, clears, rerun, ended, bronze⟩ :=
    rerun_succeeds (fun _ => {}) succeeded (gatePasses_accepting _ _ _ _ _)
  have run := reach.forget_guard
  have atEnd : ((⟨after, Function.update (fun _ => {}) "first" next⟩ : Lake).processes "first").position =
      .succeeded := by
    simp only [Function.update_self, succeeded]
  have same := (unchanged pipeline 20 _ cleared again "first" run atEnd clears rerun ended).1
  have covered := watermark_of_succeeded run atEnd .features
  have found : pipeline.rawFeatures "first" after = [] := by
    rw [rawFeatures, extraction, List.map_eq_nil_iff]
    exact selectFeatures_of_le covered
  have different := pipeline.bronzeKeys_ne "first"
  have before : after.bronze (pipeline.bronzeKeys "first").1 = some (.features [row.toRow]) := by
    rw [completed.bronze, Function.update_of_ne different, Function.update_self]
    rfl
  have replaced : again.shared.bronze (pipeline.bronzeKeys "first").1 = some (.features []) := by
    rw [bronze, Function.update_of_ne different, Function.update_self, found]
  rw [same] at replaced
  cases before.symm.trans replaced

end Amel
