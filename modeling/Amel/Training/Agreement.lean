import Mathlib.Algebra.BigOperators.Group.List.Basic
import Mathlib.Algebra.Group.Int.Defs
import Amel.Training.Steps

namespace Amel

open Python (Double binary64 roundDiv)
open Job (yields_bind yields_pure yields_lift_bind yields_read_bind yields_write_bind yields_throw_bind)

variable {Model : Type} {libraries : Libraries Model} {context : RunContext} {order : LabelOrder}
  {table : List CuratedHiggsLabel} {cfg : TrainingConfig}

/-- What the training workflow computes from a configuration when no call
fails, however it is cut into steps. -/
structure Workflow (libraries : Libraries Model) (order : LabelOrder) (table : List CuratedHiggsLabel)
    (cfg : TrainingConfig) where
  store : FeatureStore
  fvVersion : String
  df : TrainingFrame
  splits : Splits
  model : Model
  validation : Metrics × Confusion
  test : Metrics × Confusion
  signature : List Int
  testAccuracy : String
  testRocAuc : String
  opens : libraries.featureStore cfg.featureRepoPath = .ok store
  tagged : featureViewVersion store cfg.featureView = .ok fvVersion
  loads : loadTrainingFrame order table cfg store = .ok df
  parts : splitFrame libraries.trainTestSplit df cfg.randomSeed cfg.validationFraction cfg.testFraction = .ok splits
  fits : libraries.fit cfg.treeParams splits.train.x splits.train.y = .ok model
  validates : evaluatePart libraries model "validation" splits.validation.x splits.validation.y = .ok validation
  tests : evaluatePart libraries model "test" splits.test.x splits.test.y = .ok test
  experiment : libraries.setExperiment cfg.mlflowTrackingUri cfg.experimentName = .ok ()
  predicts : libraries.predict model (splits.train.x.take 5) = .ok signature
  logsModel : libraries.logModel model (splits.train.x.take 5, signature) (splits.train.x.take 3)
    cfg.registeredModelName = .ok ()
  aliases : libraries.setRegisteredModelAlias cfg.registeredModelName cfg.candidateAlias = .ok ()
  accuracyTag : metricTag (validation.1 ++ test.1) "test_accuracy" = .ok testAccuracy
  rocAucTag : metricTag (validation.1 ++ test.1) "test_roc_auc" = .ok testRocAuc

namespace Workflow

variable (w : Workflow libraries order table cfg) (context : RunContext)

def version : DatasetVersion := datasetVersion libraries.rowHashes w.df cfg.featureView w.fvVersion

def metrics : Metrics := w.validation.1 ++ w.test.1

/-- The outcome of `run_training`. -/
def trained : TrainingOutcome where
  result := ⟨context.runId, context.modelVersion, w.metrics ++ [("fit_seconds", context.fitSeconds)],
    w.version.fingerprint, context.durationSeconds⟩
  splits := w.splits
  logged := scriptLog libraries context cfg w.fvVersion w.version w.splits w.model
    (w.metrics ++ [("fit_seconds", context.fitSeconds)]) w.testAccuracy w.testRocAuc

/-- The outcome of `run_all`. -/
def stepped : Steps.Outcome where
  datasetFingerprint := w.version.fingerprint
  metrics := w.metrics
  runId := context.runId
  modelVersion := context.modelVersion
  logged := Steps.stepsLog context (context.gitSha cfg.gitSha) cfg.treeParams w.version
    (cfg.asOf.getD ⟨context.now, some 0⟩) w.splits.sizes
    ⟨context.fitSeconds, libraries.getDepth w.model, libraries.getNLeaves w.model, cfg.treeParams⟩ w.metrics
    w.testAccuracy w.testRocAuc

end Workflow

/-- The time of the fit stands after the metrics of the splits. -/
theorem metricTag_fit_seconds (metrics : Metrics) (seconds : Double) {name : String} (other : name ≠ "fit_seconds") :
    metricTag (metrics ++ [("fit_seconds", seconds)]) name = metricTag metrics name := by
  have alone : List.lookup name [("fit_seconds", seconds)] = none := by
    rw [List.lookup_cons, beq_false_of_ne other, List.lookup_nil]
  rw [metricTag, metricTag, List.lookup_append, alone, Option.or_none]

/-- The test metrics of the tags are among those of the evaluation. -/
theorem metricTag_evaluated {model : Model} {x x' : List FeatureVector} {y y' : List Int}
    {validation test : Metrics × Confusion} (validates : evaluatePart libraries model "validation" x y = .ok validation)
    (tests : evaluatePart libraries model "test" x' y' = .ok test) :
    (∃ testAccuracy, metricTag (validation.1 ++ test.1) "test_accuracy" = .ok testAccuracy) ∧
      ∃ testRocAuc, metricTag (validation.1 ++ test.1) "test_roc_auc" = .ok testRocAuc := by
  simp only [evaluatePart, computeMetrics, Except.bind_eq_ok, Except.pure_eq_ok] at validates tests
  obtain ⟨_, -, _, -, _, -, _, ⟨_, -, _, -, _, -, _, -, _, -, _, -, rfl⟩, _, -, rfl⟩ := validates
  obtain ⟨_, -, _, -, _, -, _, ⟨_, -, _, -, _, -, _, -, _, -, _, -, rfl⟩, _, -, rfl⟩ := tests
  simp [metricTag, List.lookup_cons]

/-- The script is the workflow. -/
theorem runTraining_eq_ok {outcome : TrainingOutcome} : runTraining libraries context order table cfg = .ok outcome ↔
    ∃ w : Workflow libraries order table cfg, outcome = w.trained context := by
  simp only [runTraining, Except.bind_eq_ok, Prod.exists,
    metricTag_fit_seconds _ _ (by decide : "test_accuracy" ≠ "fit_seconds"),
    metricTag_fit_seconds _ _ (by decide : "test_roc_auc" ≠ "fit_seconds")]
  constructor
  · rintro ⟨_, experiment, store, opens, fvVersion, tagged, df, loads, splits, parts, model, fits, validation,
      validationCm, validates, test, testCm, tests, signature, predicts, _, logsModel, _, aliases, testAccuracy,
      accuracyTag, testRocAuc, rocAucTag, finished⟩
    cases finished
    exact ⟨⟨store, fvVersion, df, splits, model, (validation, validationCm), (test, testCm), signature, testAccuracy,
      testRocAuc, opens, tagged, loads, parts, fits, validates, tests, experiment, predicts, logsModel, aliases,
      accuracyTag, rocAucTag⟩, rfl⟩
  · rintro ⟨w, rfl⟩
    exact ⟨(), w.experiment, w.store, w.opens, w.fvVersion, w.tagged, w.df, w.loads, w.splits, w.parts, w.model,
      w.fits, w.validation.1, w.validation.2, w.validates, w.test.1, w.test.2, w.tests, w.signature, w.predicts, (),
      w.logsModel, (), w.aliases, w.testAccuracy, w.accuracyTag, w.testRocAuc, w.rocAucTag, rfl⟩

namespace Steps

variable {files after : Path → Option (Artifact Model)}

theorem withTarget_fst (sample : Sample) : (withTarget sample).map Prod.fst = sample.x :=
  List.map_fst_zip sample.aligned.le

theorem withTarget_snd (sample : Sample) : (withTarget sample).map Prod.snd = sample.y :=
  List.map_snd_zip sample.aligned.ge

theorem loadTrainingDataset_yields {fresh : Except String TrainingConfig} {datasetPath versionPath : Path}
    {maxRows : Int} {asOf : Option Datetime} {featureRepoPath : String} {info : DatasetVersion × Datetime} :
    (loadTrainingDataset libraries context fresh order table datasetPath versionPath maxRows asOf
        featureRepoPath).Yields files info after ↔
      ∃ settings, fresh = .ok settings ∧ ∃ store, libraries.featureStore featureRepoPath = .ok store ∧
        ∃ fvVersion, featureViewVersion store settings.featureView = .ok fvVersion ∧
        ∃ df, loadTrainingFrame order table { settings with maxRows, asOf, featureRepoPath } store = .ok df ∧
          info = (datasetVersion libraries.rowHashes df settings.featureView fvVersion,
            asOf.getD ⟨context.now, some 0⟩) ∧
          after = Function.update (Function.update files datasetPath (some (.dataset df))) versionPath
            (some (.version info.1 info.2)) := by
  simp only [loadTrainingDataset, yields_lift_bind, yields_write_bind, yields_pure]
  grind

theorem validateTrainingDataset_yields {datasetPath reportPath : Path} {minRows : Nat} {maxClassImbalance : Double}
    {report : DatasetReport} :
    (validateTrainingDataset datasetPath reportPath minRows maxClassImbalance).Yields files report after ↔
      ∃ df, (files datasetPath).bind Artifact.dataset? = some df ∧ df.problems minRows maxClassImbalance = [] ∧
        report = ⟨df.rows.length, df.columns.length + 3, df.meanTarget, [], true⟩ ∧
        after = Function.update files reportPath (some (.report report)) := by
  simp only [validateTrainingDataset, readDataset, yields_read_bind, yields_write_bind]
  refine exists_congr fun df => and_congr_right fun _ => ?_
  by_cases valid : df.problems minRows maxClassImbalance = []
  · simp only [valid, ne_eq, not_true_eq_false, if_false, yields_pure, true_and]
    grind
  · simp only [valid, ne_eq, not_false_eq_true, if_true, false_and, iff_false]
    exact yields_throw_bind

theorem splitDataset_yields {datasetPath outDir : Path} {seed : Int} {validationFraction testFraction : Double}
    {sizes : SplitSizes} :
    (splitDataset libraries datasetPath outDir seed validationFraction testFraction).Yields files sizes after ↔
      ∃ df, (files datasetPath).bind Artifact.dataset? = some df ∧
        ∃ splits, splitFrame libraries.trainTestSplit df seed validationFraction testFraction = .ok splits ∧
          sizes = splits.sizes ∧
          after = Function.update (Function.update (Function.update (Function.update files
            (outDir ++ ["train.parquet"]) (some (.split (withTarget splits.train))))
            (outDir ++ ["validation.parquet"]) (some (.split (withTarget splits.validation))))
            (outDir ++ ["test.parquet"]) (some (.split (withTarget splits.test))))
            (outDir ++ ["split_sizes.json"]) (some (.sizes sizes)) := by
  simp only [splitDataset, readDataset, yields_read_bind, yields_lift_bind, yields_write_bind, yields_pure]
  grind

theorem trainModel_yields {trainPath modelPath : Path} {treeParams : TreeParams} {info : ModelInfo} :
    (trainModel libraries context trainPath modelPath treeParams).Yields files info after ↔
      ∃ df, (files trainPath).bind Artifact.split? = some df ∧
        ∃ model, libraries.fit treeParams (df.map Prod.fst) (df.map Prod.snd) = .ok model ∧
          info = ⟨context.fitSeconds, libraries.getDepth model, libraries.getNLeaves model, treeParams⟩ ∧
          after = Function.update (Function.update files modelPath (some (.model model)))
            (modelPath.withSuffix ".json") (some (.modelInfo info)) := by
  simp only [trainModel, readSplit, yields_read_bind, yields_lift_bind, yields_write_bind, yields_pure]
  grind

theorem evaluateModel_yields {modelPath splitsDir outDir : Path} {metrics : Metrics} :
    (evaluateModel libraries modelPath splitsDir outDir).Yields files metrics after ↔
      ∃ model, (files modelPath).bind Artifact.model? = some model ∧
        ∃ validationDf, (files (splitsDir ++ ["validation.parquet"])).bind Artifact.split? = some validationDf ∧
        ∃ validation, evaluatePart libraries model "validation" (validationDf.map Prod.fst)
          (validationDf.map Prod.snd) = .ok validation ∧
        ∃ testDf, (Function.update files (outDir ++ ["confusion_matrix_validation.json"])
          (some (.confusion validation.2)) (splitsDir ++ ["test.parquet"])).bind Artifact.split? = some testDf ∧
        ∃ test, evaluatePart libraries model "test" (testDf.map Prod.fst) (testDf.map Prod.snd) = .ok test ∧
          metrics = validation.1 ++ test.1 ∧
          after = Function.update (Function.update (Function.update files
            (outDir ++ ["confusion_matrix_validation.json"]) (some (.confusion validation.2)))
            (outDir ++ ["confusion_matrix_test.json"]) (some (.confusion test.2)))
            (outDir ++ ["metrics.json"]) (some (.metrics metrics)) := by
  simp only [evaluateModel, readModel, readSplit, yields_read_bind, yields_lift_bind, yields_write_bind, yields_pure]
  grind

theorem registerModel_yields {modelPath metricsDir versionPath splitsDir : Path}
    {trackingUri experimentName registeredModelName candidateAlias : String} {gitSha : Option String}
    {treeParams : TreeParams} {logged : LoggedRun} :
    (registerModel libraries context modelPath metricsDir versionPath splitsDir trackingUri experimentName
        registeredModelName candidateAlias gitSha treeParams).Yields files logged after ↔
      ∃ model, (files modelPath).bind Artifact.model? = some model ∧
        ∃ metrics, (files (metricsDir ++ ["metrics.json"])).bind Artifact.metrics? = some metrics ∧
        ∃ info, (files versionPath).bind Artifact.version? = some info ∧
        ∃ sizes, (files (splitsDir ++ ["split_sizes.json"])).bind Artifact.sizes? = some sizes ∧
        ∃ modelInfo, (files (modelPath.withSuffix ".json")).bind Artifact.modelInfo? = some modelInfo ∧
        ∃ train, (files (splitsDir ++ ["train.parquet"])).bind Artifact.split? = some train ∧
          libraries.setExperiment trackingUri experimentName = .ok () ∧
        ∃ signature, libraries.predict model ((train.take 5).map Prod.fst) = .ok signature ∧
          libraries.logModel model ((train.take 5).map Prod.fst, signature) (((train.take 5).map Prod.fst).take 3)
            registeredModelName = .ok () ∧
          libraries.setRegisteredModelAlias registeredModelName candidateAlias = .ok () ∧
        ∃ testAccuracy, metricTag metrics "test_accuracy" = .ok testAccuracy ∧
        ∃ testRocAuc, metricTag metrics "test_roc_auc" = .ok testRocAuc ∧
          logged = stepsLog context gitSha treeParams info.1 info.2 sizes modelInfo metrics testAccuracy testRocAuc ∧
          after = files := by
  simp only [registerModel, readModel, readMetrics, readVersion, readSizes, readModelInfo, readSplit,
    yields_read_bind, yields_lift_bind, yields_pure]
  grind

theorem withSuffix_model (workdir : Path) :
    Path.withSuffix (workdir ++ ["model.skops"]) ".json" = workdir ++ ["model.json"] := by
  simp only [Path.withSuffix, List.getLastD_concat, List.dropLast_concat]
  rfl

/-- The three splits as the steps leave them. -/
def LeavesSplits (files : Path → Option (Artifact Model)) (workdir : Path) (splits : Splits) : Prop :=
  files (workdir ++ ["splits", "train.parquet"]) = some (.split (withTarget splits.train)) ∧
    files (workdir ++ ["splits", "validation.parquet"]) = some (.split (withTarget splits.validation)) ∧
    files (workdir ++ ["splits", "test.parquet"]) = some (.split (withTarget splits.test))

variable {settings : TrainingConfig} {workdir : Path}

/-- The join asks for the features of the view, and nothing else of the
configuration changes what is loaded. -/
theorem loadTrainingFrame_override (sameView : settings.featureView = cfg.featureView) (store : FeatureStore) :
    loadTrainingFrame order table
      { settings with maxRows := cfg.maxRows, asOf := cfg.asOf, featureRepoPath := cfg.featureRepoPath } store =
      loadTrainingFrame order table cfg store := by
  simp only [loadTrainingFrame, sameView]

/-- The steps are the workflow behind the gate. -/
theorem workflow_of_runAll (sameView : settings.featureView = cfg.featureView) {outcome : Outcome}
    (yields : (runAll libraries context (.ok settings) order table cfg workdir).Yields files outcome after) :
    ∃ w : Workflow libraries order table cfg, w.df.problems defaultMinRows defaultMaxClassImbalance = [] ∧
      outcome = w.stepped context ∧ LeavesSplits after workdir w.splits := by
  simp only [runAll, yields_bind, yields_pure] at yields
  obtain ⟨info, files₁, load, report, files₂, validate, sizes, files₃, split, modelInfo, files₄, train, metrics, files₅,
    evaluate, logged, files₆, register, rfl, rfl⟩ := yields
  rw [loadTrainingDataset_yields] at load
  rw [validateTrainingDataset_yields] at validate
  rw [splitDataset_yields] at split
  rw [trainModel_yields] at train
  rw [evaluateModel_yields] at evaluate
  rw [registerModel_yields] at register
  obtain ⟨_, given, store, opens, fvVersion, tagged, df, loads, rfl, rfl⟩ := load
  obtain ⟨df'', atDf, valid, rfl, rfl⟩ := validate
  obtain ⟨df', atDf', splits, parts, rfl, rfl⟩ := split
  obtain ⟨trainDf, atTrain, model, fits, rfl, rfl⟩ := train
  obtain ⟨model', atModel, validationDf, atValidation, validation, validates, testDf, atTest, test, tests, rfl, rfl⟩ :=
    evaluate
  obtain ⟨model'', atModel', metricsRead, atMetrics, versionRead, atVersion, sizesRead, atSizes, infoRead, atInfo,
    trainDf', atTrain', experiment, signature, predicts, logsModel, aliases, testAccuracy, accuracyTag, testRocAuc,
    rocAucTag, rfl, rfl⟩ := register
  -- Every step reads what an earlier one wrote.
  simp only [withSuffix_model, Function.update_apply, List.append_assoc, List.append_cancel_left_eq, List.cons_append,
    List.nil_append, List.cons.injEq, String.reduceEq, and_true, and_false, if_true, if_false,
    reduceCtorEq, Option.bind_some, Option.some.injEq, Artifact.dataset?, Artifact.version?, Artifact.split?,
    Artifact.sizes?, Artifact.model?, Artifact.modelInfo?, Artifact.metrics?]
    at atDf atDf' atTrain atModel atValidation atTest atModel' atMetrics atVersion atSizes atInfo atTrain'
  subst atDf atDf' atTrain atModel atValidation atTest atModel' atMetrics atVersion atSizes atInfo atTrain'
  cases given
  simp only [List.map_take, withTarget_fst, withTarget_snd, List.take_take] at fits validates tests predicts logsModel
  rw [loadTrainingFrame_override sameView] at loads
  rw [sameView] at tagged
  refine ⟨⟨store, fvVersion, df, splits, model, validation, test, signature, testAccuracy, testRocAuc, opens, tagged,
    loads, parts, fits, validates, tests, experiment, predicts, logsModel, aliases, accuracyTag, rocAucTag⟩, valid, ?_, ?_⟩
  · simp only [Workflow.stepped, Workflow.version, Workflow.metrics, sameView]
  · simp only [LeavesSplits, withSuffix_model, Function.update_apply, List.append_assoc, List.append_cancel_left_eq,
      List.cons_append, List.nil_append, List.cons.injEq, String.reduceEq, and_true, and_false, if_true, if_false,
      reduceCtorEq]

theorem runAll_of_workflow (sameView : settings.featureView = cfg.featureView)
    (w : Workflow libraries order table cfg) (valid : w.df.problems defaultMinRows defaultMaxClassImbalance = []) :
    ∃ outcome after, (runAll libraries context (.ok settings) order table cfg workdir).Yields files outcome after := by
  simp only [runAll, yields_bind, yields_pure]
  have tagged : featureViewVersion w.store settings.featureView = .ok w.fvVersion := sameView ▸ w.tagged
  have loads := (loadTrainingFrame_override sameView w.store).trans w.loads
  refine ⟨_, _, _, _, loadTrainingDataset_yields.mpr ⟨settings, rfl, w.store, w.opens, w.fvVersion, tagged, w.df, loads, rfl,
    rfl⟩, _, _, validateTrainingDataset_yields.mpr ⟨w.df, ?_, valid, rfl, rfl⟩, _, _, splitDataset_yields.mpr ⟨w.df, ?_,
    w.splits, w.parts, rfl, rfl⟩, _, _, trainModel_yields.mpr ⟨withTarget w.splits.train, ?_, w.model, ?_, rfl, rfl⟩, _, _,
    evaluateModel_yields.mpr ⟨w.model, ?_, withTarget w.splits.validation, ?_, w.validation, ?_,
      withTarget w.splits.test, ?_, w.test, ?_, rfl, rfl⟩, _, _, registerModel_yields.mpr ⟨w.model, ?_, w.metrics, ?_,
      (w.version, cfg.asOf.getD ⟨context.now, some 0⟩), ?_, w.splits.sizes, ?_,
      ⟨context.fitSeconds, libraries.getDepth w.model, libraries.getNLeaves w.model, cfg.treeParams⟩, ?_,
      withTarget w.splits.train, ?_, w.experiment, w.signature, ?_, ?_, w.aliases,
      w.testAccuracy, w.accuracyTag, w.testRocAuc, w.rocAucTag, rfl, rfl⟩, rfl, rfl⟩
  all_goals simp only [sameView, Workflow.version, Workflow.metrics, withTarget_fst, withTarget_snd, List.map_take,
    List.take_take, withSuffix_model, Function.update_apply, List.append_assoc, List.append_cancel_left_eq,
    List.cons_append, List.nil_append, List.cons.injEq, String.reduceEq, and_true, and_false, if_true, if_false,
    reduceCtorEq, Option.bind_some, Artifact.dataset?, Artifact.version?, Artifact.split?, Artifact.sizes?,
    Artifact.model?, Artifact.modelInfo?, Artifact.metrics?]
  exacts [w.fits, w.validates, w.tests, w.predicts, w.logsModel]

/-- The gate turns the data away. -/
def Refused (libraries : Libraries Model) (order : LabelOrder) (table : List CuratedHiggsLabel)
    (cfg : TrainingConfig) : Prop :=
  ∃ store df, libraries.featureStore cfg.featureRepoPath = .ok store ∧ loadTrainingFrame order table cfg store = .ok df ∧
    df.problems defaultMinRows defaultMaxClassImbalance ≠ []

/-- The same dataset, splits, metrics of the splits and logged feature view. -/
structure SameTraining (script : TrainingOutcome) (steps : Outcome) (files : Path → Option (Artifact Model))
    (workdir : Path) : Prop where
  fingerprint : script.result.datasetFingerprint = steps.datasetFingerprint
  splits : LeavesSplits files workdir script.splits
  metrics : ∃ fitSeconds, script.result.metrics = steps.metrics ++ [("fit_seconds", fitSeconds)]
  param : script.logged.params.lookup "feature_view" = steps.logged.params.lookup "feature_view"
  tag : script.logged.tags.lookup "feature_view" = steps.logged.tags.lookup "feature_view"
  modelVersionTag : script.logged.modelVersionTags.lookup "feature_view" =
    steps.logged.modelVersionTags.lookup "feature_view"

/-- Both fail, or both succeed with the same training. -/
def Agree (script : Except String TrainingOutcome) (steps : Except String Outcome × (Path → Option (Artifact Model)))
    (workdir : Path) : Prop :=
  (∃ scriptError stepsError, script = .error scriptError ∧ steps.1 = .error stepsError) ∨
    ∃ trained stepped, script = .ok trained ∧ steps.1 = .ok stepped ∧ SameTraining trained stepped steps.2 workdir

theorem Agree.of_ok {script : Except String TrainingOutcome} {trained : TrainingOutcome}
    {steps : Except String Outcome × (Path → Option (Artifact Model))} (agree : Agree script steps workdir)
    (succeeds : script = .ok trained) :
    ∃ trained stepped, script = .ok trained ∧ steps.1 = .ok stepped ∧ SameTraining trained stepped steps.2 workdir := by
  rcases agree with ⟨scriptError, _, failed, -⟩ | both
  · cases succeeds.symm.trans failed
  · exact both

theorem sameTraining (w : Workflow libraries order table cfg) (scriptContext context : RunContext)
    (leaves : LeavesSplits files workdir w.splits) :
    SameTraining (w.trained scriptContext) (w.stepped context) files workdir where
  fingerprint := rfl
  splits := leaves
  metrics := ⟨scriptContext.fitSeconds, rfl⟩
  param := rfl
  tag := rfl
  modelVersionTag := rfl

theorem runAll_refused (sameView : settings.featureView = cfg.featureView)
    (refused : Refused libraries order table cfg) :
    ∃ error, ((runAll libraries context (.ok settings) order table cfg workdir).result files).1 = .error error := by
  obtain ⟨store, df, opens, loads, invalid⟩ := refused
  cases ended : ((runAll libraries context (.ok settings) order table cfg workdir).result files).1 with
  | error error => exact ⟨error, rfl⟩
  | ok stepped =>
    obtain ⟨w, valid, -⟩ := workflow_of_runAll sameView (Job.yields_of_ok ended)
    cases opens.symm.trans w.opens
    cases loads.symm.trans w.loads
    exact absurd valid invalid

theorem Agree.not_of_refused {script : Except String TrainingOutcome} {trained : TrainingOutcome}
    (agree : Agree script ((runAll libraries context (.ok settings) order table cfg workdir).result files) workdir)
    (sameView : settings.featureView = cfg.featureView) (refused : Refused libraries order table cfg)
    (succeeds : script = .ok trained) : False := by
  obtain ⟨_, _, -, ran, -⟩ := agree.of_ok succeeds
  obtain ⟨error, failed⟩ := runAll_refused sameView refused
  cases failed.symm.trans ran

/-- When a fresh configuration has the same feature view: data that the gate
turns away are an error of the steps, and on all other data the steps and the
script agree. -/
theorem agree_unless_refused {scriptContext : RunContext} {fresh : Except String TrainingConfig}
    (given : fresh = .ok settings) (sameView : settings.featureView = cfg.featureView) :
    let steps := (runAll libraries context fresh order table cfg workdir).result files
    (Refused libraries order table cfg → ∃ error, steps.1 = .error error) ∧
      (¬Refused libraries order table cfg →
        Agree (runTraining libraries scriptContext order table cfg) steps workdir) := by
  subst given
  intro steps
  constructor
  · exact runAll_refused sameView
  · intro accepted
    cases trained : runTraining libraries scriptContext order table cfg with
    | error scriptError =>
      cases ended : steps.1 with
      | error stepsError => exact Or.inl ⟨scriptError, stepsError, rfl, ended⟩
      | ok stepped =>
        obtain ⟨w, -, -⟩ := workflow_of_runAll sameView (Job.yields_of_ok ended)
        cases trained.symm.trans (runTraining_eq_ok.mpr ⟨w, rfl⟩)
    | ok outcome =>
      obtain ⟨w, -⟩ := runTraining_eq_ok.mp trained
      have valid : w.df.problems defaultMinRows defaultMaxClassImbalance = [] := by
        by_contra invalid
        exact accepted ⟨w.store, w.df, w.opens, w.loads, invalid⟩
      obtain ⟨stepped, after, ran⟩ : ∃ stepped after, steps = (.ok stepped, after) := runAll_of_workflow sameView w valid
      obtain ⟨w', -, rfl, leaves⟩ := workflow_of_runAll sameView ran
      have same : outcome = w'.trained scriptContext :=
        Except.ok.inj (trained.symm.trans (runTraining_eq_ok.mpr ⟨w', rfl⟩))
      rw [ran, same]
      exact Or.inr ⟨_, _, rfl, rfl, sameTraining w' scriptContext context leaves⟩

end Steps

/-- A tree of one leaf, with the labels that reached it. -/
structure Leaf where
  zeros : Nat
  ones : Nat

def share (part whole : Nat) : Double := if whole = 0 then 0 else .ofRatio part whole

/-- The first rows of each class, as many as its share of the test part. -/
def firstOfEachClass : TrainTestSplit := fun y testSize _ =>
  let tested (i : Fin y.length) : Bool :=
    (y.take i).count y[i] < roundDiv (binary64.decode testSize.magnitude * y.count y[i]) (2 ^ 1074)
  .ok ((List.finRange y.length).filter fun i => !tested i, (List.finRange y.length).filter tested)

def hits (yTrue yPred : List Int) (truth predicted : Int) : Nat := (yTrue.zip yPred).count (truth, predicted)

/-- The libraries on rows whose features are all zero, half of them in each
class: no split of the tree helps, so it is a leaf. -/
def leafLibraries : Libraries Leaf where
  featureStore _ := .ok {
    versionTag := fun _ => .ok (some "1")
    historicalFeatures := fun entities _ => .ok {
      columns := featureColumns
      rows := entities.map fun e => ⟨e.entityId, e.eventTimestamp, e.target, featureColumns.map (·, 0)⟩
      aligned := fun row member => by
        obtain ⟨e, -, rfl⟩ := List.mem_map.mp member
        rfl } }
  rowHashes _ := "0000000000000000"
  trainTestSplit := firstOfEachClass
  fit _ _ y := .ok ⟨y.count 0, y.count 1⟩
  getDepth _ := 0
  getNLeaves _ := 1
  predict model x := .ok (x.map fun _ => if model.zeros < model.ones then 1 else 0)
  predictProba model x := .ok [x.map fun _ => share model.zeros (model.zeros + model.ones),
    x.map fun _ => share model.ones (model.zeros + model.ones)]
  accuracyScore yTrue yPred := .ok (share (hits yTrue yPred 0 0 + hits yTrue yPred 1 1) yTrue.length)
  precisionScore yTrue yPred := .ok (share (hits yTrue yPred 1 1) (yPred.count 1))
  recallScore yTrue yPred := .ok (share (hits yTrue yPred 1 1) (yTrue.count 1))
  f1Score yTrue yPred := .ok (share (2 * hits yTrue yPred 1 1) (yTrue.count 1 + yPred.count 1))
  rocAucScore _ _ := .ok 0x3FE0000000000000
  logLoss _ _ := .ok 0x3FE62E42FEFA39EF
  confusionMatrix yTrue yPred :=
    .ok ⟨hits yTrue yPred 0 0, hits yTrue yPred 0 1, hits yTrue yPred 1 0, hits yTrue yPred 1 1⟩
  setExperiment _ _ := .ok ()
  logModel _ _ _ _ := .ok ()
  setRegisteredModelAlias _ _ := .ok ()

/-- Labels of both classes in turn, the newest first. -/
def balancedLabel (i : Nat) : CuratedHiggsLabel :=
  ⟨"label-" ++ toString i, "higgs-" ++ toString i, i % 2, -i, labelSchemaVersion, "first"⟩

def leafContext : RunContext := ⟨"run", "1", none, 2000, 0, 0, "1.7.1", "3.12"⟩

/-- The data as of a time after all labels, in splits of whole rows. -/
def fifths : TrainingConfig where
  asOf := some ⟨1000, some 0⟩
  validationFraction := 0x3FC999999999999A
  testFraction := 0x3FC999999999999A

/-- Every row has its features, so none is dropped. -/
theorem leaf_loads {store : FeatureStore} (opens : leafLibraries.featureStore cfg.featureRepoPath = .ok store)
    (found : queryLabels order cfg.maxRows cfg.asOf table ≠ []) :
    ∃ df, loadTrainingFrame order table cfg store = .ok df ∧ df.missing featureColumns = [] ∧
      df.rows.map (·.target) =
        (queryLabels order cfg.maxRows cfg.asOf table).map fun label => label.target.bmod 256 := by
  cases opens
  have complete : (featureColumns.all fun name =>
      !(TrainingRow.value ⟨"", 0, 0, featureColumns.map (·, 0)⟩ name).isNaN) = true := by decide +kernel
  have kept : ∀ row ∈ ((queryLabels order cfg.maxRows cfg.asOf table).map (·.toEntity)).map fun e =>
      TrainingRow.mk e.entityId e.eventTimestamp e.target (featureColumns.map (·, 0)),
      (featureColumns.all fun name => !(row.value name).isNaN) = true := by
    intro row member
    obtain ⟨e, -, rfl⟩ := List.mem_map.mp member
    exact complete
  have none_missing : (featureColumns.filter fun name => name ∉ featureColumns) = [] := by decide
  simp only [loadTrainingFrame, Except.bind_eq_ok, Except.pure_eq_ok]
  refine ⟨_, ⟨_, loadEntityDf_eq_ok.mpr ⟨found, rfl⟩, _, rfl, _, if_pos none_missing, rfl⟩, none_missing, ?_⟩
  dsimp only [TrainingFrame.int8Target]
  rw [List.filter_eq_self.mpr kept, List.map_map, List.map_map, List.map_map]
  rfl

/-- These libraries fail on nothing that is loaded and can be split. -/
theorem leaf_trains (context : RunContext) {df : TrainingFrame} {store : FeatureStore}
    (opens : leafLibraries.featureStore cfg.featureRepoPath = .ok store)
    (loads : loadTrainingFrame order table cfg store = .ok df)
    (parts : ∃ splits, splitFrame firstOfEachClass df cfg.randomSeed cfg.validationFraction cfg.testFraction = .ok splits) :
    ∃ outcome, runTraining leafLibraries context order table cfg = .ok outcome := by
  obtain ⟨splits, parts⟩ := parts
  have tagged : featureViewVersion store cfg.featureView = .ok "1" := by
    cases opens
    rfl
  let model : Leaf := ⟨splits.train.y.count 0, splits.train.y.count 1⟩
  obtain ⟨validation, validates⟩ : ∃ validation, evaluatePart leafLibraries model "validation" splits.validation.x
    splits.validation.y = .ok validation := ⟨_, rfl⟩
  obtain ⟨test, tests⟩ : ∃ test, evaluatePart leafLibraries model "test" splits.test.x splits.test.y = .ok test :=
    ⟨_, rfl⟩
  obtain ⟨⟨testAccuracy, accuracyTag⟩, testRocAuc, rocAucTag⟩ := metricTag_evaluated validates tests
  exact ⟨_, runTraining_eq_ok.mpr ⟨⟨store, "1", df, splits, model, validation, test, _, testAccuracy, testRocAuc, opens,
    tagged, loads, parts, rfl, validates, tests, rfl, rfl, rfl, rfl, accuracyTag, rocAucTag⟩, rfl⟩⟩

/-- Proper fractions can be split, whatever the rows. -/
theorem leaf_splits {df : TrainingFrame} (complete : df.missing featureColumns = [])
    {validationFraction testFraction : Double}
    (proper : (Double.lt 0 (Double.add validationFraction testFraction) &&
      Double.lt (Double.add validationFraction testFraction) .one) = true)
    (divides : (Double.div validationFraction (.sub .one testFraction)).isSome = true) (seed : Int) :
    ∃ splits, splitFrame firstOfEachClass df seed validationFraction testFraction = .ok splits := by
  obtain ⟨share, divided⟩ := Option.isSome_iff_exists.mp divides
  simp only [splitFrame, proper, TrainingFrame.sample, if_pos complete, divided]
  exact ⟨_, rfl⟩

/-- The query selects all of these labels. -/
theorem balanced_selected {count : Nat} (few : count ≤ 200000) {asOf : Datetime} (past : 0 ≤ asOf.asUtc) :
    (queryLabels order 200000 (some asOf) ((List.range count).map balancedLabel)).Perm
      ((List.range count).map balancedLabel) := by
  have all : eligible (some asOf) ((List.range count).map balancedLabel) = (List.range count).map balancedLabel := by
    refine List.filter_eq_self.mpr fun label member => ?_
    obtain ⟨i, -, rfl⟩ := List.mem_map.mp member
    refine decide_eq_true ?_
    show -(i : Int) ≤ asOf.asUtc
    omega
  rw [queryLabels, all]
  refine order.newest_of_fits fun n limited => ?_
  cases limited
  rwa [List.length_map, List.length_range]

/-- What is loaded of these labels. -/
theorem balanced_loads (order : LabelOrder) (cfg : TrainingConfig) {count : Nat} (some_labels : 0 < count)
    (few : count ≤ 200000) (asks : cfg.maxRows = 200000) {asOf : Datetime} (at_time : cfg.asOf = some asOf)
    (past : 0 ≤ asOf.asUtc) {store : FeatureStore}
    (opens : leafLibraries.featureStore cfg.featureRepoPath = .ok store) :
    ∃ df, loadTrainingFrame order ((List.range count).map balancedLabel) cfg store = .ok df ∧
      df.missing featureColumns = [] ∧ df.rows.length = count ∧
      (df.rows.map (·.target)).Perm ((List.range count).map fun i : Nat => ((i : Int) % 2).bmod 256) := by
  have selected : (queryLabels order cfg.maxRows cfg.asOf ((List.range count).map balancedLabel)).Perm
      ((List.range count).map balancedLabel) := by
    rw [asks, at_time]
    exact balanced_selected few past
  have found : queryLabels order cfg.maxRows cfg.asOf ((List.range count).map balancedLabel) ≠ [] := by
    rw [← List.length_pos_iff, selected.length_eq, List.length_map, List.length_range]
    exact some_labels
  obtain ⟨df, loads, complete, targets⟩ := leaf_loads opens found
  have perm : (df.rows.map (·.target)).Perm ((List.range count).map fun i : Nat => ((i : Int) % 2).bmod 256) := by
    have mapped := selected.map fun label => label.target.bmod 256
    have alternate : (fun label => label.target.bmod 256) ∘ balancedLabel = fun i : Nat => ((i : Int) % 2).bmod 256 := by
      funext i
      rw [Function.comp_apply, balancedLabel]
    rwa [List.map_map, ← targets, alternate] at mapped
  have length := perm.length_eq
  rw [List.length_map, List.length_map, List.length_range] at length
  exact ⟨df, loads, complete, length, perm⟩

/-- A thousand labels pass the gate, and both ways train on them alike. -/
theorem Steps.thousand_labels_agree :
    let table := (List.range 1000).map balancedLabel
    let cfg : TrainingConfig := { asOf := some ⟨1000, some 0⟩ }
    let steps := (runAll leafLibraries leafContext (.ok {}) (.stable _) table cfg ["workdir"]).result fun _ => none
    ∃ trained stepped, runTraining leafLibraries leafContext (.stable _) table cfg = .ok trained ∧
      steps.1 = .ok stepped ∧ SameTraining trained stepped steps.2 ["workdir"] := by
  intro table cfg steps
  obtain ⟨store, opens⟩ : ∃ store, leafLibraries.featureStore cfg.featureRepoPath = .ok store := ⟨_, rfl⟩
  obtain ⟨df, loads, complete, length, targets⟩ := balanced_loads (.stable _) cfg
    (by decide : 0 < 1000) (by decide) rfl rfl (by decide) opens
  obtain ⟨outcome, script⟩ := leaf_trains leafContext opens loads
    (leaf_splits complete (by decide +kernel) (by decide +kernel) 42)
  have accepted : ¬Refused leafLibraries (.stable _) table cfg := by
    rintro ⟨store', df', opens', loads', invalid⟩
    cases opens.symm.trans opens'
    cases loads.symm.trans loads'
    have sum : (df.rows.map (·.target)).sum = 500 := by
      rw [targets.sum_eq]
      decide +kernel
    refine invalid ((TrainingFrame.problems_of_loaded loads).mpr ⟨length.ge, fun row member => ?_, fun _ => ?_⟩)
    · obtain ⟨i, -, is⟩ := List.mem_map.mp (targets.subset (List.mem_map_of_mem member))
      rcases Int.emod_two_eq_zero_or_one i with even | odd
      · rw [even] at is
        exact Or.inl is.symm
      · rw [odd] at is
        exact Or.inr is.symm
    · have nonempty : df.rows.isEmpty = false := by
        rw [List.isEmpty_eq_false_iff, ← List.length_pos_iff, length]
        decide
      rw [TrainingFrame.meanTarget, nonempty, sum, length]
      decide +kernel
  have agree : Agree (runTraining leafLibraries leafContext (.stable _) table cfg) steps ["workdir"] :=
    (agree_unless_refused rfl rfl).2 accepted
  exact agree.of_ok script

/-- Twenty labels are too few for the gate of the steps, and enough for the
script. -/
theorem Steps.twenty_labels_refused :
    ¬∀ (Model : Type) (libraries : Libraries Model) (scriptContext context : RunContext)
      (fresh : Except String TrainingConfig) (order : LabelOrder) (table : List CuratedHiggsLabel) (cfg : TrainingConfig)
      (workdir : Path) (files : Path → Option (Artifact Model)), cfg.asOf ≠ none →
      Agree (runTraining libraries scriptContext order table cfg)
        ((runAll libraries context fresh order table cfg workdir).result files) workdir := by
  intro agree
  let table := (List.range 20).map balancedLabel
  obtain ⟨store, opens⟩ : ∃ store, leafLibraries.featureStore fifths.featureRepoPath = .ok store := ⟨_, rfl⟩
  obtain ⟨df, loads, complete, length, -⟩ := balanced_loads (.stable _) fifths
    (by decide : 0 < 20) (by decide) rfl rfl (by decide) opens
  obtain ⟨outcome, script⟩ := leaf_trains leafContext opens loads
    (leaf_splits complete (by decide +kernel) (by decide +kernel) _)
  have refused : Refused leafLibraries (.stable _) table fifths := by
    refine ⟨store, df, opens, loads, fun valid => ?_⟩
    have enough := ((TrainingFrame.problems_of_loaded loads).mp valid).1
    rw [length] at enough
    cases enough.not_gt (by decide)
  have both := agree Leaf leafLibraries leafContext leafContext (.ok {}) (.stable _) table fifths ["workdir"]
    (fun _ => none) (by decide)
  exact both.not_of_refused rfl refused script

end Amel
