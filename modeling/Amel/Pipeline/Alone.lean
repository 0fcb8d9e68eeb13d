import Mathlib.Tactic.NormNum
import Amel.Pipeline.Run

namespace Amel

open Fleet (Alone)
open Transition (Reach Guarded)

namespace Pipeline

variable (pipeline : Pipeline) (id : String) (s : World)

def determineHighWatermark : WatermarkBounds :=
  ⟨s.watermarks.get featuresPipeline, s.watermarks.get labelsPipeline, pipeline.upperBound id⟩

/-- What the extraction returns when nothing else moves. -/
def extraction : Extraction where
  features := selectFeatures s.landing (s.watermarks.get featuresPipeline) (pipeline.upperBound id)
  labels := selectLabels s.landing (s.watermarks.get labelsPipeline) (pipeline.upperBound id)
  openAtFeatures := s.transactions
  openAtLabels := s.transactions

def rawFeatures : List FeatureRow := (pipeline.extraction id s).features.map (·.toRow)

def rawLabels : List LabelRow := (pipeline.extraction id s).labels.map (·.toRow)

def silverFeatures : List FeatureRow :=
  transformFeatures (pipeline.validateFeatures s.clock (pipeline.rawFeatures id s)).1

def silverLabels : List LabelRow := transformLabels (pipeline.validateLabels s.clock (pipeline.rawLabels id s)).1

def bronzeKeys : String × String :=
  (Keys.bronzeKey "features" (pipeline.upperBound id) id, Keys.bronzeKey "labels" (pipeline.upperBound id) id)

def silverKeys : String × String :=
  (Keys.silverKey "features" (pipeline.upperBound id) id, Keys.silverKey "labels" (pipeline.upperBound id) id)

def validated : Validated where
  invalidFeatures := (pipeline.validateFeatures s.clock (pipeline.rawFeatures id s)).2.invalidRows
  invalidLabels := (pipeline.validateLabels s.clock (pipeline.rawLabels id s)).2.invalidRows
  reportKey := Keys.validationReportKey id

/-- The run that has prepared its update of the curated tables. -/
def prepared (p : DagRun) : DagRun :=
  { p with
    position := .waiting .updateCuratedTables
    bounds := some (pipeline.determineHighWatermark id s)
    extraction := some (pipeline.extraction id s)
    bronzeKeys := some (pipeline.bronzeKeys id)
    validated := some (pipeline.validated id s)
    silverKeys := some (pipeline.silverKeys id) }

end Pipeline

/-- What is left when the run has prepared its update: its objects and its
staged frames. -/
structure World.Prepared (pipeline : Pipeline) (id : String) (s after : World) : Prop where
  frame : after = { s with
    bronze := after.bronze, silver := after.silver, reports := after.reports, staging := after.staging }
  bronze : after.bronze = Function.update
    (Function.update s.bronze (pipeline.bronzeKeys id).1 (some (.features (pipeline.rawFeatures id s))))
    (pipeline.bronzeKeys id).2 (some (.labels (pipeline.rawLabels id s)))
  silver : after.silver = Function.update
    (Function.update s.silver (pipeline.silverKeys id).1 (some (.features (pipeline.silverFeatures id s))))
    (pipeline.silverKeys id).2 (some (.labels (pipeline.silverLabels id s)))
  silverFeatures : (after.staging (Keys.safeRunId id)).silverFeatures = some (pipeline.silverFeatures id s)
  silverLabels : (after.staging (Keys.safeRunId id)).silverLabels = some (pipeline.silverLabels id s)

def World.trainingDf (id : String) (s : World) : List CuratedTrainingRecord :=
  buildTrainingDataset s.curatedFeatures s.curatedLabels s.trainingRecords id

/-- The requests of `update_feature_store`. -/
def World.materialize (id : String) (s : World) : World :=
  { s with
    requests := s.requests ++ (materializeWindowsForRun s.curatedFeatures id materializeChunkRows).map (id, ·) }

/-- Actions whose place among those of other runs does not matter. -/
def RunAction.Quiet : RunAction → Prop
  | .commitCurated | .upsertTraining | .putGold | .finish | .retry | .giveUp _ _ | .clear _ => False
  | _ => True

/-- Actions of an attempt that neither fails nor ends the run. -/
def RunAction.Forward : RunAction → Prop
  | .finish | .retry | .giveUp _ _ | .clear _ => False
  | _ => True

theorem RunAction.Quiet.forward {action : RunAction} (quiet : action.Quiet) : action.Forward := by
  cases action <;> trivial

/-- The run holds what `emit_pipeline_metadata` reports of the tasks up to
`update_curated_tables`. -/
def DagRun.Reports (p : DagRun) : Prop :=
  (∃ bounds, p.bounds = some bounds) ∧ (∃ extraction, p.extraction = some extraction) ∧
    (∃ bronzeKeys, p.bronzeKeys = some bronzeKeys) ∧ (∃ validated, p.validated = some validated) ∧
    (∃ silverKeys, p.silverKeys = some silverKeys) ∧ ∃ curated, p.curated = some curated

namespace Pipeline

variable {pipeline : Pipeline} {id : String} {s : World} {p : DagRun}

theorem extract_alone (waiting : p.position = .waiting .determineHighWatermark) :
    Alone pipeline.Act RunAction.Quiet id (s, p)
      (s.stage id fun files =>
        { files with rawFeatures := some (pipeline.rawFeatures id s), rawLabels := some (pipeline.rawLabels id s) },
      { p with
        position := .waiting .writeBronze
        bounds := some (pipeline.determineHighWatermark id s), extraction := some (pipeline.extraction id s) }) := by
  have start : Alone pipeline.Act RunAction.Quiet id (s, p) (s, p) := .refl
  have read := (start.next (.readFeaturesWatermark waiting) trivial).next (.readLabelsWatermark rfl) trivial
  have features := read.next (.extractFeatures rfl rfl) trivial
  have labels := features.next (.extractLabels rfl rfl) trivial
  simpa only [rawFeatures, rawLabels, extraction, determineHighWatermark] using labels

theorem writeBronze_alone {featuresDf : List FeatureRow} {labelsDf : List LabelRow}
    (waiting : p.position = .waiting .writeBronze)
    (features : (s.staging (Keys.safeRunId id)).rawFeatures = some featuresDf)
    (labels : (s.staging (Keys.safeRunId id)).rawLabels = some labelsDf) :
    Alone pipeline.Act RunAction.Quiet id (s, p)
      ((s.putBronze (pipeline.bronzeKeys id).1 (.features featuresDf)).putBronze (pipeline.bronzeKeys id).2
        (.labels labelsDf),
      { p with position := .waiting .validate, bronzeKeys := some (pipeline.bronzeKeys id) }) := by
  have start : Alone pipeline.Act RunAction.Quiet id (s, p) (s, p) := .refl
  have first := start.next (.putBronzeFeatures waiting features) trivial
  exact first.next (.putBronzeLabels rfl labels) trivial

theorem validate_alone {featuresDf : List FeatureRow} {labelsDf : List LabelRow}
    (waiting : p.position = .waiting .validate)
    (features : (s.staging (Keys.safeRunId id)).rawFeatures = some featuresDf)
    (labels : (s.staging (Keys.safeRunId id)).rawLabels = some labelsDf)
    (gate : pipeline.GatePasses s featuresDf labelsDf) :
    Alone pipeline.Act RunAction.Quiet id (s, p)
      ((pipeline.writeValidated s id featuresDf labelsDf).stage id fun files =>
        { files with
          silverFeatures := some (transformFeatures (pipeline.validateFeatures s.clock featuresDf).1)
          silverLabels := some (transformLabels (pipeline.validateLabels s.clock labelsDf).1) },
      { p with
        position := .waiting .writeSilver
        validated := some ⟨(pipeline.validateFeatures s.clock featuresDf).2.invalidRows,
          (pipeline.validateLabels s.clock labelsDf).2.invalidRows, Keys.validationReportKey id⟩ }) := by
  have start : Alone pipeline.Act RunAction.Quiet id (s, p) (s, p) := .refl
  have valid := start.next (.validatePasses waiting features labels gate) trivial
  refine valid.next (.transform rfl ?_ ?_) trivial
  all_goals simp only [writeValidated, World.putReport, World.stage, Function.update_self]

theorem writeSilver_alone {featuresDf : List FeatureRow} {labelsDf : List LabelRow}
    (waiting : p.position = .waiting .writeSilver)
    (features : (s.staging (Keys.safeRunId id)).silverFeatures = some featuresDf)
    (labels : (s.staging (Keys.safeRunId id)).silverLabels = some labelsDf) :
    Alone pipeline.Act RunAction.Quiet id (s, p)
      ((s.putSilver (pipeline.silverKeys id).1 (.features featuresDf)).putSilver (pipeline.silverKeys id).2
        (.labels labelsDf),
      { p with position := .waiting .updateCuratedTables, silverKeys := some (pipeline.silverKeys id) }) := by
  have start : Alone pipeline.Act RunAction.Quiet id (s, p) (s, p) := .refl
  have first := start.next (.putSilverFeatures waiting features) trivial
  exact first.next (.putSilverLabels rfl labels) trivial

/-- A run left to itself whose validation gate passes prepares its update. -/
theorem prepare_alone (waiting : p.position = .waiting .determineHighWatermark)
    (gate : pipeline.GatePasses s (pipeline.rawFeatures id s) (pipeline.rawLabels id s)) :
    ∃ after, Alone pipeline.Act RunAction.Quiet id (s, p) (after, pipeline.prepared id s p) ∧
      World.Prepared pipeline id s after := by
  have extracted := @extract_alone pipeline id s p waiting
  generalize staged : (s.stage id fun files => _) = s₁ at extracted
  have raw : s₁.clock = s.clock ∧
      (s₁.staging (Keys.safeRunId id)).rawFeatures = some (pipeline.rawFeatures id s) ∧
      (s₁.staging (Keys.safeRunId id)).rawLabels = some (pipeline.rawLabels id s) := by
    simp only [← staged, World.stage, Function.update_self, and_self]
  have bronze := extracted.trans (writeBronze_alone rfl raw.2.1 raw.2.2)
  generalize put : (s₁.putBronze _ _).putBronze _ _ = s₂ at bronze
  have unchanged : s₂.clock = s₁.clock ∧ s₂.staging = s₁.staging := by
    simp only [← put, World.putBronze, and_self]
  have gated : pipeline.GatePasses s₂ (pipeline.rawFeatures id s) (pipeline.rawLabels id s) := by
    simpa only [GatePasses, unchanged, raw] using gate
  have valid := bronze.trans (validate_alone rfl (by rw [unchanged.2, raw.2.1]) (by rw [unchanged.2, raw.2.2]) gated)
  rw [unchanged.1, raw.1] at valid
  generalize written : (World.stage (pipeline.writeValidated _ _ _ _) _ _) = s₃ at valid
  have silver : (s₃.staging (Keys.safeRunId id)).silverFeatures = some (pipeline.silverFeatures id s) ∧
      (s₃.staging (Keys.safeRunId id)).silverLabels = some (pipeline.silverLabels id s) := by
    simp only [← written, World.stage, Function.update_self, silverFeatures, silverLabels, and_self]
  refine ⟨_, valid.trans (writeSilver_alone rfl silver.1 silver.2), ?_, ?_, ?_, ?_, ?_⟩
  · simp only [← written, ← put, ← staged, World.putSilver, World.stage, writeValidated, World.putReport,
      World.putBronze]
  · simp only [← written, ← put, ← staged, World.putSilver, World.stage, writeValidated, World.putReport,
      World.putBronze]
  · simp only [← written, ← put, ← staged, World.putSilver, World.stage, writeValidated, World.putReport,
      World.putBronze]
  · simpa only [World.putSilver] using silver.1
  · simpa only [World.putSilver] using silver.2

theorem post_alone (windows : List (Int × Int)) (posting : p.position = .posting windows) :
    Alone pipeline.Act RunAction.Quiet id (s, p)
      ({ s with requests := s.requests ++ windows.map (id, ·) }, { p with position := .posting [] }) := by
  induction windows generalizing s p with
  | nil =>
    have same : ({ p with position := .posting [] } : DagRun) = p := by rw [← posting]
    rw [List.map_nil, List.append_nil, same]
  | cons w rest ih =>
    obtain ⟨lo, hi⟩ := w
    have start : Alone pipeline.Act RunAction.Quiet id (s, p) (s, p) := .refl
    have posted := (start.next (.postWindow posting) trivial).trans (ih rfl)
    simpa only [List.map_cons, List.append_assoc, List.singleton_append] using posted

/-- `update_feature_store` without a failure. -/
theorem materialize_alone (waiting : p.position = .waiting .updateFeatureStore) :
    Alone pipeline.Act RunAction.Quiet id (s, p)
      (World.materialize id s,
      { p with position := .waiting .emitPipelineMetadata, unmaterialized := false }) := by
  have start : Alone pipeline.Act RunAction.Quiet id (s, p) (s, p) := .refl
  have read := start.next (.readWindows waiting) trivial
  have posted := read.trans (post_alone _ rfl)
  exact Alone.next posted (.finishFeatureStore rfl) trivial

/-- The rest of a run after its training data. -/
theorem emit_alone (waiting : p.position = .waiting .updateFeatureStore) (reports : p.Reports)
    (gold : p.gold.isSome = true) :
    ∃ after next, Alone pipeline.Act RunAction.Quiet id (s, p) (after, next) ∧
      after = { World.materialize id s with pipelineRuns := after.pipelineRuns } ∧
      next.position = .runRecorded ∧ next.unmaterialized = false := by
  obtain ⟨⟨bounds, atBounds⟩, ⟨extraction, atExtraction⟩, ⟨bronze, atBronze⟩, ⟨validated, atValidated⟩,
    ⟨silver, atSilver⟩, ⟨curated, atCurated⟩⟩ := reports
  obtain ⟨gold, atGold⟩ := Option.isSome_iff_exists.mp gold
  have materialized := @materialize_alone pipeline id s p waiting
  have recorded := materialized.next
    (.recordSuccess rfl atBounds atExtraction atBronze atValidated atSilver atCurated atGold) trivial
  exact ⟨_, _, recorded, rfl, rfl, rfl⟩

/-- The training data of a run that has new records, or none. -/
theorem train_alone {features labels : Nat} (committed : p.position = .curatedCommitted features labels) :
    ∃ after next, Alone pipeline.Act RunAction.Forward id (s, p) (after, next) ∧
      after = { s with
        trainingRecords := (upsertTrainingRecords s.trainingRecords (World.trainingDf id s)).1
        gold := after.gold, unwritten := after.unwritten } ∧
      next = { p with
        position := .waiting .updateFeatureStore, curated := some (features, labels), gold := next.gold } ∧
      next.gold.isSome = true := by
  have start : Alone pipeline.Act RunAction.Forward id (s, p) (s, p) := .refl
  have built := (start.next (.finishCurated committed) trivial).next (.buildTraining rfl (.refl _)) trivial
  have upserted := built.next (.upsertTraining rfl) trivial
  by_cases inserted : 0 < (upsertTrainingRecords s.trainingRecords (World.trainingDf id s)).2
  · exact ⟨_, _, upserted.next (.putGold rfl inserted) trivial, rfl, rfl, rfl⟩
  · exact ⟨_, _, upserted.next (.skipGold rfl inserted) trivial, rfl, rfl, rfl⟩

/-- What is left when the run has recorded its success: beside its objects
and records the curated update, the training records it upserted and the
windows it materialized. -/
structure Completed (pipeline : Pipeline) (id : String) (s after : World) : Prop where
  landing : after.landing = s.landing
  curatedFeatures : after.curatedFeatures =
    (updateCuratedFeatures s.curatedFeatures (pipeline.silverFeatures id s) id).1
  curatedLabels : after.curatedLabels = (updateCuratedLabels s.curatedLabels (pipeline.silverLabels id s) id).1
  bronze : after.bronze = Function.update
    (Function.update s.bronze (pipeline.bronzeKeys id).1 (some (.features (pipeline.rawFeatures id s))))
    (pipeline.bronzeKeys id).2 (some (.labels (pipeline.rawLabels id s)))
  silver : after.silver = Function.update
    (Function.update s.silver (pipeline.silverKeys id).1 (some (.features (pipeline.silverFeatures id s))))
    (pipeline.silverKeys id).2 (some (.labels (pipeline.silverLabels id s)))
  trainingRecords : after.trainingRecords = (upsertTrainingRecords s.trainingRecords
    (buildTrainingDataset after.curatedFeatures after.curatedLabels s.trainingRecords id)).1
  requests : after.requests = s.requests ++
    (materializeWindowsForRun after.curatedFeatures id materializeChunkRows).map (id, ·)

/-- Nothing has happened meanwhile, and both watermarks have reached the bound
of the run. -/
structure Advanced (pipeline : Pipeline) (id : String) (s after : World) : Prop where
  clock : after.clock = s.clock
  watermarks : after.watermarks = (s.watermarks.advance featuresPipeline (pipeline.upperBound id)).advance
    labelsPipeline (pipeline.upperBound id)

/-- A run left to itself whose validation gate passes gets through. -/
theorem complete_alone (waiting : p.position = .waiting .determineHighWatermark)
    (gate : pipeline.GatePasses s (pipeline.rawFeatures id s) (pipeline.rawLabels id s)) :
    ∃ after next, Alone pipeline.Act RunAction.Forward id (s, p) (after, next) ∧ Completed pipeline id s after ∧
      Advanced pipeline id s after ∧ next.position = .runRecorded ∧ next.unmaterialized = false := by
  obtain ⟨s₁, prepares, prepared⟩ := prepare_alone waiting gate
  have forward : Alone pipeline.Act RunAction.Forward id (s, p) (s₁, pipeline.prepared id s p) :=
    Alone.mono (fun _ quiet => quiet.forward) prepares
  have committed := forward.next (.commitCurated rfl rfl rfl prepared.silverFeatures prepared.silverLabels) trivial
  generalize at₂ : s₁.commitCurated _ _ _ _ _ = s₂ at committed
  generalize next₂ : ({ pipeline.prepared id s p with position := _, unmaterialized := _ } : DagRun) = p₂ at committed
  obtain ⟨s₃, p₃, trains, at₃, next₃, gold⟩ := @train_alone pipeline id s₂ p₂ _ _ (by rw [← next₂])
  have waits : p₃.position = .waiting .updateFeatureStore := by rw [next₃]
  have reports : p₃.Reports := by
    rw [next₃, ← next₂]
    exact ⟨⟨_, rfl⟩, ⟨_, rfl⟩, ⟨_, rfl⟩, ⟨_, rfl⟩, ⟨_, rfl⟩, ⟨_, rfl⟩⟩
  obtain ⟨s₄, p₄, emits, at₄, recorded, settled⟩ := @emit_alone pipeline id s₃ p₃ waits reports gold
  have whole := committed.trans (trains.trans (Alone.mono (fun _ quiet => quiet.forward) emits))
  have frame := prepared.frame
  have bronze : s₄.bronze = s₁.bronze ∧ s₄.silver = s₁.silver := by
    rw [at₄, World.materialize, at₃, ← at₂]
    exact ⟨rfl, rfl⟩
  have completed : Completed pipeline id s s₄ := by
    refine ⟨?_, ?_, ?_, bronze.1.trans prepared.bronze, bronze.2.trans prepared.silver, ?_, ?_⟩
    all_goals
      rw [at₄, World.materialize, at₃, ← at₂, frame]
      rfl
  have advanced : Advanced pipeline id s s₄ := by
    constructor
    all_goals
      rw [at₄, World.materialize, at₃, ← at₂, frame]
      rfl
  exact ⟨s₄, p₄, whole, completed, advanced, recorded, settled⟩

theorem gatePasses_of_valid (threshold : 0 ≤ pipeline.maxInvalidFraction) {featuresDf : List FeatureRow}
    {labelsDf : List LabelRow} (features : pipeline.pandera.featuresSchema s.clock featuresDf = [])
    (labels : pipeline.pandera.labelsSchema s.clock labelsDf = []) : pipeline.GatePasses s featuresDf labelsDf := by
  have accepted {Row : Type} (schema : List Row → List Nat) (df : List Row) (valid : schema df = []) :
      (validate schema df).2.invalidFraction = 0 := by
    unfold validate
    split
    · rfl
    · simp [valid, ValidationReport.invalidFraction]
  have featuresFraction := accepted (pipeline.pandera.featuresSchema s.clock) featuresDf features
  have labelsFraction := accepted (pipeline.pandera.labelsSchema s.clock) labelsDf labels
  exact ⟨featuresFraction.le.trans threshold, labelsFraction.le.trans threshold⟩

variable {allowed : Lake → LakeAction → Prop} {origin : Lake} {processes : String → DagRun}

/-- A run that is due gets up to its curated commit while the others wait. -/
theorem reach_prepared
    (reach : Reach (Guarded pipeline.Step allowed) origin ⟨s, Function.update processes id p⟩)
    (idle : p.position = .idle) (due : pipeline.upperBound id ≤ s.clock)
    (gate : pipeline.GatePasses s (pipeline.rawFeatures id s) (pipeline.rawLabels id s))
    (allows : ∀ lake action, RunAction.Quiet action → allowed lake (.inr (id, action))) :
    ∃ after, Reach (Guarded pipeline.Step allowed) origin
      ⟨after, Function.update processes id (pipeline.prepared id s p)⟩ ∧ World.Prepared pipeline id s after := by
  have triggered := Fleet.reach_act reach (.trigger idle due) (allows _ .trigger trivial)
  obtain ⟨after, prepares, prepared⟩ :=
    @prepare_alone pipeline id s { p with position := .waiting .determineHighWatermark } rfl gate
  exact ⟨after, Fleet.reach_alone triggered prepares fun lake action _ => allows lake action, prepared⟩

/-- And up to the record of its success. -/
theorem reach_completed
    (reach : Reach (Guarded pipeline.Step allowed) origin ⟨s, Function.update processes id p⟩)
    (idle : p.position = .idle) (due : pipeline.upperBound id ≤ s.clock)
    (gate : pipeline.GatePasses s (pipeline.rawFeatures id s) (pipeline.rawLabels id s))
    (allows : ∀ lake action, RunAction.Forward action → allowed lake (.inr (id, action))) :
    ∃ after next, Reach (Guarded pipeline.Step allowed) origin ⟨after, Function.update processes id next⟩ ∧
      Completed pipeline id s after ∧ Advanced pipeline id s after ∧ next.position = .runRecorded ∧
      next.unmaterialized = false := by
  have triggered := Fleet.reach_act reach (.trigger idle due) (allows _ .trigger trivial)
  obtain ⟨after, next, completes, completed⟩ :=
    @complete_alone pipeline id s { p with position := .waiting .determineHighWatermark } rfl gate
  exact ⟨after, next, Fleet.reach_alone triggered completes fun lake action _ => allows lake action, completed⟩

/-- And to its end. -/
theorem reach_succeeded (reach : Reach (Guarded pipeline.Step allowed) origin ⟨s, Function.update processes id p⟩)
    (idle : p.position = .idle) (due : pipeline.upperBound id ≤ s.clock)
    (gate : pipeline.GatePasses s (pipeline.rawFeatures id s) (pipeline.rawLabels id s))
    (allows : ∀ lake action, allowed lake (.inr (id, action))) :
    ∃ after next, Reach (Guarded pipeline.Step allowed) origin ⟨after, Function.update processes id next⟩ ∧
      Completed pipeline id s after ∧ Advanced pipeline id s after ∧ next.position = .succeeded := by
  obtain ⟨after, next, reach, completed, advanced, recorded, -⟩ :=
    reach_completed reach idle due gate fun _ _ _ => allows ..
  obtain ⟨landing, curatedFeatures, curatedLabels, bronze, silver, training, requests⟩ := completed
  have finished := Fleet.reach_act reach (.finish recorded) (allows ..)
  exact ⟨_, _, finished, ⟨landing, curatedFeatures, curatedLabels, bronze, silver, training, requests⟩,
    ⟨advanced.clock, advanced.watermarks⟩, rfl⟩

/-- A deployment whose data the schemas accept. -/
def accepting (upperBound : String → Int) (upperBound_after : ∀ runId, Watermarks.epoch < upperBound runId) :
    Pipeline where
  upperBound
  upperBound_after
  startDate _ := none
  pandera := ⟨fun _ _ => [], fun _ _ => []⟩
  maxInvalidFraction := 1 / 20

theorem gatePasses_accepting (upperBound : String → Int) (after : ∀ runId, Watermarks.epoch < upperBound runId)
    (s : World) (featuresDf : List FeatureRow) (labelsDf : List LabelRow) :
    (accepting upperBound after).GatePasses s featuresDf labelsDf :=
  gatePasses_of_valid (by norm_num [accepting]) rfl rfl

end Pipeline

/-- A feature event and a label event of one entity, as the ingestor maps
them. -/
def HiggsFeatureEvent.of (eventId entityId : String) (eventTimestamp : Int) : HiggsFeatureEvent where
  eventId
  entityId
  eventTimestamp
  schemaVersion := featureSchemaVersion
  source := "source_simulator"
  features := higgsFeatureNames.map fun name => (name, 0)
  traceId := "00000000000000000000000000000001"
  kafkaPartition := 0
  kafkaOffset := 0
  ingestedAt := 0

def HiggsLabelEvent.of (eventId entityId : String) (labelTimestamp : Int) : HiggsLabelEvent where
  eventId
  entityId
  target := 1
  labelTimestamp
  schemaVersion := labelSchemaVersion
  kafkaPartition := 0
  kafkaOffset := 0
  ingestedAt := 0

theorem Lake.reach_initial {pipeline : Pipeline} {allowed : Lake → LakeAction → Prop} (clock : ℕ+) (id : String) :
    Reach (Guarded pipeline.Step allowed) (.initial clock)
      ⟨{ clock := Watermarks.epoch + (clock : Nat) }, Function.update (fun _ => {}) id {}⟩ := by
  rw [Lake.initial, Function.update_eq_self_iff.mpr rfl]

/-- One landing transaction, committed before any run. -/
theorem Lake.reach_landed {pipeline : Pipeline} {allowed : Lake → LakeAction → Prop} (clock : ℕ+) (id : String)
    (features : List HiggsFeatureEvent) (labels : List HiggsLabelEvent) (microseconds : Nat)
    (allows : ∀ lake event, allowed lake (.inl event)) :
    let start : Int := Watermarks.epoch + (clock : Nat)
    Reach (Guarded pipeline.Step allowed) (.initial clock)
      ⟨{ clock := start + microseconds
         landing := Landing.insert {} (features.map ({ · with ingestedAt := start }))
          (labels.map ({ · with ingestedAt := start })) },
        Function.update (fun _ => {}) id {}⟩ := by
  intro start
  have initial : Reach (Guarded pipeline.Step allowed) (.initial clock) _ := Lake.reach_initial clock id
  let transaction : LandingTransaction :=
    ⟨start, features.map ({ · with ingestedAt := start }), labels.map ({ · with ingestedAt := start })⟩
  have began : Reach (Guarded pipeline.Step allowed) (.initial clock)
      ⟨{ clock := start, transactions := [transaction] }, Function.update (fun _ => {}) id {}⟩ :=
    initial.next (.inl (.beginLanding features labels)) ⟨.environment .beginLanding, allows ..⟩
  have landed := began.next (.inl (.commitLanding transaction))
    ⟨.environment (.commitLanding (List.mem_singleton.mpr rfl)), allows ..⟩
  rw [List.erase_cons_head] at landed
  exact landed.next (.inl (.tick microseconds)) ⟨.environment .tick, allows ..⟩

end Amel
