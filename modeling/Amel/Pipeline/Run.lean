import Amel.Pipeline.Dag

namespace Amel

inductive RunAction
  | trigger
  | readFeaturesWatermark
  | readLabelsWatermark
  | extractFeatures
  | extractLabels
  | putBronzeFeatures
  | putBronzeLabels
  | validatePasses
  | validateFails
  | transform
  | putSilverFeatures
  | putSilverLabels
  | commitCurated
  | finishCurated
  | buildTraining
  | upsertTraining
  | putGold
  | skipGold
  | readWindows
  | postWindow
  | finishFeatureStore
  | recordSuccess
  | finish
  | retry
  | giveUp (error : String) (callbackRuns : Bool)
  | clear (task : Task)

/-- One step of the DAG run `id`. Each effect outside the worker (a
transaction, a put, a request) is a step, so an attempt may end between any
two of them, in a retry or for good. -/
inductive Pipeline.Act (pipeline : Pipeline) (id : String) : World → DagRun → RunAction → World → DagRun → Prop
  | trigger {s p} : p.position = .idle → pipeline.upperBound id ≤ s.clock →
      Act pipeline id s p .trigger s { p with position := .waiting .determineHighWatermark }
  | readFeaturesWatermark {s p} : p.position = .waiting .determineHighWatermark →
      Act pipeline id s p .readFeaturesWatermark s
        { p with position := .featuresWatermarkRead (s.watermarks.get featuresPipeline) }
  | readLabelsWatermark {s p featuresWatermark} : p.position = .featuresWatermarkRead featuresWatermark →
      Act pipeline id s p .readLabelsWatermark s
        { p with
          position := .waiting .extractNewRecords
          bounds := some ⟨featuresWatermark, s.watermarks.get labelsPipeline, pipeline.upperBound id⟩ }
  | extractFeatures {s p bounds} : p.position = .waiting .extractNewRecords → p.bounds = some bounds →
      Act pipeline id s p .extractFeatures s
        { p with
          position := .featuresExtracted (selectFeatures s.landing bounds.featuresWatermark bounds.upperBound)
            s.transactions }
  | extractLabels {s p bounds features openAtFeatures} : p.position = .featuresExtracted features openAtFeatures →
      p.bounds = some bounds →
      Act pipeline id s p .extractLabels
        (s.stage id fun files =>
          { files with
            rawFeatures := some (features.map (·.toRow))
            rawLabels := some ((selectLabels s.landing bounds.labelsWatermark bounds.upperBound).map (·.toRow)) })
        { p with
          position := .waiting .writeBronze
          extraction := some ⟨features, selectLabels s.landing bounds.labelsWatermark bounds.upperBound,
            openAtFeatures, s.transactions⟩ }
  | putBronzeFeatures {s p df} : p.position = .waiting .writeBronze →
      (s.staging (Keys.safeRunId id)).rawFeatures = some df →
      Act pipeline id s p .putBronzeFeatures
        (s.putBronze (Keys.bronzeKey "features" (pipeline.upperBound id) id) (.features df))
        { p with position := .bronzeFeaturesPut }
  | putBronzeLabels {s p df} : p.position = .bronzeFeaturesPut →
      (s.staging (Keys.safeRunId id)).rawLabels = some df →
      Act pipeline id s p .putBronzeLabels
        (s.putBronze (Keys.bronzeKey "labels" (pipeline.upperBound id) id) (.labels df))
        { p with
          position := .waiting .validate
          bronzeKeys := some (Keys.bronzeKey "features" (pipeline.upperBound id) id,
            Keys.bronzeKey "labels" (pipeline.upperBound id) id) }
  | validatePasses {s p featuresDf labelsDf} : p.position = .waiting .validate →
      (s.staging (Keys.safeRunId id)).rawFeatures = some featuresDf →
      (s.staging (Keys.safeRunId id)).rawLabels = some labelsDf → pipeline.GatePasses s featuresDf labelsDf →
      Act pipeline id s p .validatePasses (pipeline.writeValidated s id featuresDf labelsDf)
        { p with
          position := .waiting .transform
          validated := some ⟨(pipeline.validateFeatures s.clock featuresDf).2.invalidRows,
            (pipeline.validateLabels s.clock labelsDf).2.invalidRows, Keys.validationReportKey id⟩ }
  | validateFails {s p featuresDf labelsDf} : p.position = .waiting .validate →
      (s.staging (Keys.safeRunId id)).rawFeatures = some featuresDf →
      (s.staging (Keys.safeRunId id)).rawLabels = some labelsDf → ¬pipeline.GatePasses s featuresDf labelsDf →
      Act pipeline id s p .validateFails (pipeline.writeValidated s id featuresDf labelsDf) p
  | transform {s p featuresDf labelsDf} : p.position = .waiting .transform →
      (s.staging (Keys.safeRunId id)).validFeatures = some featuresDf →
      (s.staging (Keys.safeRunId id)).validLabels = some labelsDf →
      Act pipeline id s p .transform
        (s.stage id fun files =>
          { files with
            silverFeatures := some (transformFeatures featuresDf), silverLabels := some (transformLabels labelsDf) })
        { p with position := .waiting .writeSilver }
  | putSilverFeatures {s p df} : p.position = .waiting .writeSilver →
      (s.staging (Keys.safeRunId id)).silverFeatures = some df →
      Act pipeline id s p .putSilverFeatures
        (s.putSilver (Keys.silverKey "features" (pipeline.upperBound id) id) (.features df))
        { p with position := .silverFeaturesPut }
  | putSilverLabels {s p df} : p.position = .silverFeaturesPut →
      (s.staging (Keys.safeRunId id)).silverLabels = some df →
      Act pipeline id s p .putSilverLabels
        (s.putSilver (Keys.silverKey "labels" (pipeline.upperBound id) id) (.labels df))
        { p with
          position := .waiting .updateCuratedTables
          silverKeys := some (Keys.silverKey "features" (pipeline.upperBound id) id,
            Keys.silverKey "labels" (pipeline.upperBound id) id) }
  | commitCurated {s p bounds extraction featuresDf labelsDf} : p.position = .waiting .updateCuratedTables →
      p.bounds = some bounds → p.extraction = some extraction →
      (s.staging (Keys.safeRunId id)).silverFeatures = some featuresDf →
      (s.staging (Keys.safeRunId id)).silverLabels = some labelsDf →
      Act pipeline id s p .commitCurated (s.commitCurated id bounds extraction featuresDf labelsDf)
        { p with
          position := .curatedCommitted (updateCuratedFeatures s.curatedFeatures featuresDf id).2
            (updateCuratedLabels s.curatedLabels labelsDf id).2
          unmaterialized := p.unmaterialized || 0 < (updateCuratedFeatures s.curatedFeatures featuresDf id).2 }
  | finishCurated {s p features labels} : p.position = .curatedCommitted features labels →
      Act pipeline id s p .finishCurated s
        { p with position := .waiting .buildTrainingDataset, curated := some (features, labels) }
  | buildTraining {s p df} : p.position = .waiting .buildTrainingDataset →
      df.Perm (buildTrainingDataset s.curatedFeatures s.curatedLabels s.trainingRecords id) →
      Act pipeline id s p .buildTraining s { p with position := .trainingBuilt df }
  | upsertTraining {s p df} : p.position = .trainingBuilt df →
      Act pipeline id s p .upsertTraining (s.upsertTraining id df)
        { p with position := .trainingUpserted df (upsertTrainingRecords s.trainingRecords df).2 }
  | putGold {s p df newCount} : p.position = .trainingUpserted df newCount → 0 < newCount →
      Act pipeline id s p .putGold (s.putGold id df)
        { p with
          position := .waiting .updateFeatureStore, gold := some (newCount, some (Keys.goldTrainingKey id)) }
  | skipGold {s p df newCount} : p.position = .trainingUpserted df newCount → ¬0 < newCount →
      Act pipeline id s p .skipGold s
        { p with position := .waiting .updateFeatureStore, gold := some (newCount, none) }
  | readWindows {s p} : p.position = .waiting .updateFeatureStore →
      Act pipeline id s p .readWindows s
        { p with position := .posting (materializeWindowsForRun s.curatedFeatures id materializeChunkRows) }
  | postWindow {s p lo hi rest} : p.position = .posting ((lo, hi) :: rest) →
      Act pipeline id s p .postWindow { s with requests := s.requests ++ [(id, lo, hi)] }
        { p with position := .posting rest }
  | finishFeatureStore {s p} : p.position = .posting [] →
      Act pipeline id s p .finishFeatureStore s
        { p with position := .waiting .emitPipelineMetadata, unmaterialized := false }
  | recordSuccess {s p bounds extraction bronzeKeys validated silverKeys curated gold} :
      p.position = .waiting .emitPipelineMetadata → p.bounds = some bounds → p.extraction = some extraction →
      p.bronzeKeys = some bronzeKeys → p.validated = some validated → p.silverKeys = some silverKeys →
      p.curated = some curated → p.gold = some gold →
      Act pipeline id s p .recordSuccess
        (pipeline.recordSuccess s id bounds extraction bronzeKeys silverKeys validated curated gold)
        { p with position := .runRecorded }
  | finish {s p} : p.position = .runRecorded →
      Act pipeline id s p .finish (s.stage id fun _ => {}) { p with position := .succeeded }
  | retry {s p task} : p.position.task = some task →
      Act pipeline id s p .retry s { p with position := .waiting task }
  | giveUp {s p task error callbackRuns} : p.position.task = some task →
      Act pipeline id s p (.giveUp error callbackRuns)
        (if callbackRuns then pipeline.recordFailure s id task error else s) { p with position := .failed task }
  | clear {s p task reached} : p.position.frontier = some reached → task.index ≤ reached.index →
      Act pipeline id s p (.clear task) s (p.clearFrom task)

inductive LakeEvent
  | tick (microseconds : Nat)
  | beginLanding (features : List HiggsFeatureEvent) (labels : List HiggsLabelEvent)
  | commitLanding (transaction : LandingTransaction)
  | abortLanding (transaction : LandingTransaction)

/-- The clock, and the ingestor's transactions: `ingested_at` is the start
of the inserting transaction, the rows appear at its commit. -/
inductive LakeEvent.Happens : World → LakeEvent → World → Prop
  | tick {s microseconds} : Happens s (.tick microseconds) { s with clock := s.clock + microseconds }
  | beginLanding {s features labels} : Happens s (.beginLanding features labels)
      { s with
        transactions := s.transactions ++ [⟨s.clock, features.map ({ · with ingestedAt := s.clock }),
          labels.map ({ · with ingestedAt := s.clock })⟩] }
  | commitLanding {s transaction} : transaction ∈ s.transactions → Happens s (.commitLanding transaction)
      { s with
        landing := s.landing.insert transaction.features transaction.labels
        transactions := s.transactions.erase transaction }
  | abortLanding {s transaction} : transaction ∈ s.transactions → Happens s (.abortLanding transaction)
      { s with transactions := s.transactions.erase transaction }

/-- The lake: any number of DAG runs by run id over one world. -/
abbrev Lake := Fleet String World DagRun

abbrev LakeAction := LakeEvent ⊕ String × RunAction

/-- The lake before the first run, at a time after the epoch. -/
def Lake.initial (clock : ℕ+) : Lake := ⟨{ clock := Watermarks.epoch + (clock : Nat) }, fun _ => {}⟩

abbrev Pipeline.Step (pipeline : Pipeline) : Lake → LakeAction → Lake → Prop :=
  Fleet.Step LakeEvent.Happens pipeline.Act

namespace Pipeline.Act

variable {pipeline : Pipeline} {id : String} {s after : World} {p next : DagRun} {action : RunAction}

/-- No task touches the landing side. -/
theorem landing (taken : pipeline.Act id s p action after next) :
    after.clock = s.clock ∧ after.landing = s.landing ∧ after.transactions = s.transactions := by
  cases taken with
  | giveUp => split <;> simp only [recordFailure, World.recordPipelineRun, and_self]
  | _ => simp only [World.stage, World.putBronze, World.putSilver, World.putReport, World.commitCurated,
      World.upsertTraining, World.putGold, World.recordPipelineRun, writeValidated, Pipeline.recordSuccess, and_self]

/-- The curated tables, the watermarks and the record of commits change in
one transaction or not at all. -/
theorem curates (taken : pipeline.Act id s p action after next) :
    (action ≠ .commitCurated ∧ after.curatedFeatures = s.curatedFeatures ∧ after.curatedLabels = s.curatedLabels ∧
      after.watermarks = s.watermarks ∧ after.commits = s.commits) ∨
    ∃ bounds extraction featuresDf labelsDf, action = .commitCurated ∧ p.bounds = some bounds ∧
      p.extraction = some extraction ∧ (s.staging (Keys.safeRunId id)).silverFeatures = some featuresDf ∧
      (s.staging (Keys.safeRunId id)).silverLabels = some labelsDf ∧
      after = s.commitCurated id bounds extraction featuresDf labelsDf := by
  cases taken with
  | commitCurated _ atBounds atExtraction atFeatures atLabels =>
    exact Or.inr ⟨_, _, _, _, rfl, atBounds, atExtraction, atFeatures, atLabels, rfl⟩
  | giveUp =>
    refine Or.inl ⟨nofun, ?_⟩
    split <;> simp only [recordFailure, World.recordPipelineRun, and_self]
  | _ =>
    refine Or.inl ⟨nofun, ?_⟩
    simp only [World.stage, World.putBronze, World.putSilver, World.putReport, World.upsertTraining, World.putGold,
      World.recordPipelineRun, writeValidated, Pipeline.recordSuccess, and_self]

/-- The training records and the gold bucket change by the upsert and the
put of `build_training_dataset`. -/
theorem trains (taken : pipeline.Act id s p action after next) :
    (action ≠ .upsertTraining ∧ action ≠ .putGold ∧ after.trainingRecords = s.trainingRecords ∧ after.gold = s.gold ∧
      after.unwritten = s.unwritten) ∨
    (∃ df, action = .upsertTraining ∧ p.position = .trainingBuilt df ∧ after = s.upsertTraining id df ∧
      next.position = .trainingUpserted df (upsertTrainingRecords s.trainingRecords df).2) ∨
    ∃ df newCount, action = .putGold ∧ p.position = .trainingUpserted df newCount ∧ 0 < newCount ∧
      after = s.putGold id df ∧ next.position = .waiting .updateFeatureStore := by
  cases taken with
  | upsertTraining built => exact Or.inr (Or.inl ⟨_, rfl, built, rfl, rfl⟩)
  | putGold upserted inserted => exact Or.inr (Or.inr ⟨_, _, rfl, upserted, inserted, rfl, rfl⟩)
  | giveUp =>
    refine Or.inl ⟨nofun, nofun, ?_⟩
    split <;> simp only [recordFailure, World.recordPipelineRun, and_self]
  | _ =>
    refine Or.inl ⟨nofun, nofun, ?_⟩
    simp only [World.stage, World.putBronze, World.putSilver, World.putReport, World.commitCurated,
      World.recordPipelineRun, writeValidated, Pipeline.recordSuccess, and_self]

end Pipeline.Act

end Amel
