import Amel.Training.Kubeflow

namespace Amel

open Transition
open Job (Run Starts Sequenced yields_bind yields_pure yields_lift yields_lift_bind yields_read_bind)
open Steps (readModel readMetrics readVersion readSizes readModelInfo readSplit withTarget defaultMaxClassImbalance
  defaultMinRows loadTrainingDataset_yields validateTrainingDataset_yields splitDataset_yields trainModel_yields
  evaluateModel_yields withTarget_fst withTarget_snd withSuffix_model loadTrainingFrame_override)
open Python (Double)

variable {Model : Type} {libraries : Libraries Model} {context : RunContext} {order : LabelOrder}
  {table : List CuratedHiggsLabel} {cfg : TrainingConfig}

/-- What is loaded, split, fitted and computed of a configuration is fixed by
it. -/
theorem Workflow.unique (w w' : Workflow libraries order table cfg) : w = w' := by
  obtain ⟨store, fvVersion, df, splits, model, validation, test, signature, testAccuracy, testRocAuc, opens, tagged,
    loads, parts, fits, validates, tests, experiment, predicts, logsModel, aliases, accuracyTag, rocAucTag⟩ := w
  obtain ⟨store', fvVersion', df', splits', model', validation', test', signature', testAccuracy', testRocAuc', opens',
    tagged', loads', parts', fits', validates', tests', experiment', predicts', logsModel', aliases', accuracyTag',
    rocAucTag'⟩ := w'
  cases opens.symm.trans opens'
  cases tagged.symm.trans tagged'
  cases loads.symm.trans loads'
  cases parts.symm.trans parts'
  cases fits.symm.trans fits'
  cases validates.symm.trans validates'
  cases tests.symm.trans tests'
  cases predicts.symm.trans predicts'
  cases accuracyTag.symm.trans accuracyTag'
  cases rocAucTag.symm.trans rocAucTag'
  rfl

namespace Kubeflow

variable {contexts : Component → RunContext} {settings host : TrainingConfig} {storage : Storage} {p : Parameters}
  {jobId : String} {files after : Path → Option (Artifact Model)}

theorem registerStep_yields {modelPath metricsDir versionPath splitsDir : Path}
    {trackingUri experimentName registeredModelName candidateAlias : String} {gitSha pipelineRunId : Option String}
    {treeParams : TreeParams} {registered : Registration} :
    (registerStep libraries context modelPath metricsDir versionPath splitsDir trackingUri experimentName
        registeredModelName candidateAlias gitSha treeParams pipelineRunId).Yields files registered after ↔
      ∃ model, (files modelPath).bind Artifact.model? = some model ∧
        ∃ metrics, (files (metricsDir ++ ["metrics.json"])).bind Artifact.metrics? = some metrics ∧
        ∃ info, (files versionPath).bind Artifact.version? = some info ∧
        ∃ sizes, (files (splitsDir ++ ["split_sizes.json"])).bind Artifact.sizes? = some sizes ∧
        ∃ modelInfo, (files (modelPath.withSuffix ".json")).bind Artifact.modelInfo? = some modelInfo ∧
        ∃ train, (files (splitsDir ++ ["train.parquet"])).bind Artifact.split? = some train ∧
          libraries.setExperiment trackingUri experimentName = .ok () ∧
        ∃ signature, libraries.predict model ((train.take 5).map Prod.fst) = .ok signature ∧
          libraries.logModel model ((train.take 5).map Prod.fst, signature) (((train.take 5).map Prod.fst).take 3)
            registeredModelName = .ok () ∧
          libraries.setRegisteredModelAlias registeredModelName candidateAlias = .ok () ∧
        ∃ testAccuracy, metricTag metrics "test_accuracy" = .ok testAccuracy ∧
        ∃ testRocAuc, metricTag metrics "test_roc_auc" = .ok testRocAuc ∧
          registered = ⟨pipelineRunId.map ("kfp-" ++ ·), context.modelVersion, registerLog context gitSha treeParams
            info.1 info.2 sizes modelInfo metrics testAccuracy testRocAuc pipelineRunId⟩ ∧
          after = files := by
  simp only [registerStep, readModel, readMetrics, readVersion, readSizes, readModelInfo, readSplit,
    yields_read_bind, yields_lift_bind, yields_pure]
  grind

/-- The component loads what the configuration says. -/
theorem loadTrainingFrame_config (sameView : settings.featureView = host.featureView) (store : FeatureStore) :
    loadTrainingFrame order table
      { settings with maxRows := p.maxRows, asOf := p.asOf, featureRepoPath := p.featureRepoPath } store =
      loadTrainingFrame order table (p.config host) store := by
  have view : settings.featureView = (p.config host).featureView := sameView
  exact loadTrainingFrame_override view store

theorem metric_of_tag {metrics : Metrics} {name tag : String} (tagged : metricTag metrics name = .ok tag) :
    ∃ value, metric metrics name = .ok value := by
  unfold metricTag at tagged
  unfold metric
  cases found : metrics.lookup name with
  | none =>
    rw [found] at tagged
    cases tagged
  | some value => exact ⟨value, rfl⟩

/-- Behind the gate nothing stops the tasks. -/
theorem sequenced_of_workflow (sameView : settings.featureView = host.featureView)
    (w : Workflow libraries order table (p.config host)) (valid : w.df.problems p.minRows defaultMaxClassImbalance = []) :
    ∃ done after, done.map Prod.fst = taskOrder ∧
      Sequenced (higgsTrainingPipeline libraries contexts (.ok settings) order table storage p jobId) files done after := by
  have tagged : featureViewVersion w.store settings.featureView = .ok w.fvVersion := sameView ▸ w.tagged
  have loads := (loadTrainingFrame_config sameView w.store).trans w.loads
  obtain ⟨testAccuracy, measured⟩ := metric_of_tag w.accuracyTag
  refine Sequenced.cons (yields_bind.mpr ⟨_, _, loadTrainingDataset_yields.mpr ⟨settings, rfl, w.store, w.opens,
      w.fvVersion, tagged, w.df, loads, rfl, rfl⟩, yields_pure.mpr ⟨rfl, rfl⟩⟩)
    (Sequenced.cons (yields_bind.mpr ⟨_, _, validateTrainingDataset_yields.mpr ⟨w.df, ?_, valid, rfl, rfl⟩,
      yields_pure.mpr ⟨rfl, rfl⟩⟩)
    (Sequenced.cons (yields_bind.mpr ⟨_, _, splitDataset_yields.mpr ⟨w.df, ?_, w.splits, w.parts, rfl, rfl⟩,
      yields_pure.mpr ⟨rfl, rfl⟩⟩)
    (Sequenced.cons (yields_bind.mpr ⟨_, _, trainModel_yields.mpr ⟨withTarget w.splits.train, ?_, w.model, ?_, rfl, rfl⟩,
      yields_pure.mpr ⟨rfl, rfl⟩⟩)
    (Sequenced.cons (yields_bind.mpr ⟨_, _, evaluateModel_yields.mpr ⟨w.model, ?_, withTarget w.splits.validation, ?_,
      w.validation, ?_, withTarget w.splits.test, ?_, w.test, ?_, rfl, rfl⟩,
      yields_bind.mpr ⟨testAccuracy, _, yields_lift.mpr ⟨measured, rfl⟩, yields_pure.mpr ⟨rfl, rfl⟩⟩⟩)
    (Sequenced.cons (yields_bind.mpr ⟨_, _, registerStep_yields.mpr ⟨w.model, ?_, w.metrics, ?_,
      (w.version, p.asOf.getD ⟨(contexts .loadTrainingDataset).now, some 0⟩), ?_, w.splits.sizes, ?_,
      ⟨(contexts .trainModel).fitSeconds, libraries.getDepth w.model, libraries.getNLeaves w.model, p.treeParams⟩, ?_,
      withTarget w.splits.train, ?_, w.experiment, w.signature, ?_, ?_, w.aliases, w.testAccuracy, w.accuracyTag,
      w.testRocAuc, w.rocAucTag, rfl, rfl⟩, yields_pure.mpr ⟨rfl, rfl⟩⟩)
    ⟨[], _, rfl, rfl⟩)))))
  all_goals simp only [sameView, Workflow.version, Workflow.metrics, withTarget_fst, withTarget_snd, List.map_take,
    List.take_take, withSuffix_model, Function.update_apply, Storage.append_eq_append, Storage.path_eq_append,
    Storage.append_eq_path, Storage.path_eq_path, List.cons.injEq, String.reduceEq, and_true, and_false, if_true,
    if_false, reduceCtorEq, Option.bind_some, Artifact.dataset?, Artifact.version?, Artifact.split?, Artifact.sizes?,
    Artifact.model?, Artifact.modelInfo?, Artifact.metrics?]
  exacts [w.fits, w.validates, w.tests, rfl, w.predicts, w.logsModel]

def Output.name : Output → String
  | dataset => "dataset"
  | datasetVersion => "dataset_version"
  | report => "report"
  | splits => "splits"
  | model => "model"
  | evaluation => "evaluation"

/-- Every output in a directory of its own. -/
def byName : Storage where
  path output := [output.name]
  apart := by
    intro a b x y same
    have names : a.name = b.name := (List.cons.inj same).1
    cases a <;> cases b <;> first | rfl | exact absurd names (by decide)

def thousandLabels : List CuratedHiggsLabel := (List.range 1000).map balancedLabel

def allLabels : Arguments := { maxRows := 200000, asOf := some ⟨1000, some 0⟩ }

theorem thousandLabels_workflow : ∃ w : Workflow leafLibraries (.stable _) thousandLabels (allLabels.params.config {}),
    w.df.problems allLabels.params.minRows defaultMaxClassImbalance = [] := by
  obtain ⟨store, opens⟩ : ∃ store, leafLibraries.featureStore (allLabels.params.config {}).featureRepoPath = .ok store :=
    ⟨_, rfl⟩
  obtain ⟨df, loads, complete, length, targets⟩ := balanced_loads (.stable _) (allLabels.params.config {})
    (by decide : 0 < 1000) (by decide) rfl rfl (by decide) opens
  obtain ⟨outcome, script⟩ := leaf_trains leafContext opens loads
    (leaf_splits complete (by decide +kernel) (by decide +kernel) 42)
  obtain ⟨w, -⟩ := runTraining_eq_ok.mp script
  cases opens.symm.trans w.opens
  have same : w.df = df := Except.ok.inj (w.loads.symm.trans loads)
  refine ⟨w, (TrainingFrame.problems_of_loaded w.loads).mpr ⟨?_, fun row member => ?_, fun _ => ?_⟩⟩
  · rw [same]
    exact length.ge
  · rw [same] at member
    obtain ⟨i, -, is⟩ := List.mem_map.mp (targets.subset (List.mem_map_of_mem member))
    rcases Int.emod_two_eq_zero_or_one i with even | odd
    · rw [even] at is
      exact Or.inl is.symm
    · rw [odd] at is
      exact Or.inr is.symm
  · have sum : (df.rows.map (·.target)).sum = 500 := by
      rw [targets.sum_eq]
      decide +kernel
    have nonempty : df.rows.isEmpty = false := by
      rw [List.isEmpty_eq_false_iff, ← List.length_pos_iff, length]
      decide
    rw [same, TrainingFrame.meanTarget, nonempty, sum, length]
    decide +kernel

/-- The pipeline on a thousand labels, in one image. -/
def thousandLabelsPipeline : Component → Steps.StepJob Leaf Execution :=
  higgsTrainingPipeline leafLibraries (fun _ => leafContext) (.ok {}) (.stable _) thousandLabels byName allLabels.params
    "run"

theorem thousandLabels_run : ∃ run, Reach (Starts needs thousandLabelsPipeline) (.start fun _ => none) run ∧
    (∀ task after, ¬Starts needs thousandLabelsPipeline run task after) ∧ run.Succeeded .registerModel := by
  obtain ⟨w, valid⟩ := thousandLabels_workflow
  obtain ⟨done, after, all, sequenced⟩ : ∃ done after, done.map Prod.fst = taskOrder ∧
    Sequenced thousandLabelsPipeline (fun _ => none) done after := sequenced_of_workflow rfl w valid
  refine ⟨⟨after, Job.outcomes String done⟩, sequenced.reach taskOrder_nodup needs_earlier [] all.symm, ?_, ?_⟩
  · intro task next starts
    obtain ⟨fresh, -⟩ := starts
    exact absurd (all ▸ mem_taskOrder task) (Job.outcomes_eq_none.mp fresh)
  · exact Job.exists_of_outcomes (all ▸ mem_taskOrder _)

/-- What the gate asks of the dataset that is loaded. -/
def Cleared (libraries : Libraries Model) (fresh : Except String TrainingConfig) (order : LabelOrder)
    (table : List CuratedHiggsLabel) (p : Parameters) : Prop :=
  ∃ settings store df, fresh = .ok settings ∧ libraries.featureStore p.featureRepoPath = .ok store ∧
    loadTrainingFrame order table
      { settings with maxRows := p.maxRows, asOf := p.asOf, featureRepoPath := p.featureRepoPath } store = .ok df ∧
    p.minRows ≤ df.rows.length ∧ (∀ row ∈ df.rows, row.target = 0 ∨ row.target = 1) ∧
    (df.rows ≠ [] → ¬defaultMaxClassImbalance.lt (majorityShare df.meanTarget))

variable {fresh : Except String TrainingConfig} {run : Run Component Path (Artifact Model) String Execution}
  {task : Component}

/-- The first two tasks pass only a dataset that is cleared. -/
theorem cleared_of_sequenced {done : List (Component × Execution)} {more : List Component}
    (first : done.map Prod.fst = .loadTrainingDataset :: .validateTrainingDataset :: more)
    (sequenced : Sequenced (higgsTrainingPipeline libraries contexts fresh order table storage p jobId) files done after) :
    Cleared libraries fresh order table p := by
  simp only [List.map_eq_cons_iff] at first
  obtain ⟨⟨_, loaded⟩, _, rfl, rfl, ⟨_, validated⟩, _, rfl, rfl, rest⟩ := first
  obtain ⟨_, load, _, validate, -⟩ := sequenced
  simp only [higgsTrainingPipeline, loadTrainingDataset, validateTrainingDataset, yields_bind, yields_pure] at load validate
  obtain ⟨info, _, load, -, rfl⟩ := load
  obtain ⟨report, _, validate, -, rfl⟩ := validate
  rw [loadTrainingDataset_yields] at load
  rw [validateTrainingDataset_yields] at validate
  obtain ⟨settings, given, store, opens, fvVersion, tagged, df, loads, rfl, rfl⟩ := load
  obtain ⟨df', atDf, valid, rfl, rfl⟩ := validate
  simp only [Function.update_apply, Storage.path_eq_path, reduceCtorEq, if_false, if_true, Option.bind_some,
    Artifact.dataset?, Option.some.injEq] at atDf
  subst atDf
  exact ⟨settings, store, df, given, opens, loads, (TrainingFrame.problems_of_loaded loads).mp valid⟩

/-- Whatever the order in which tasks are started, behind the gate none runs
unless the dataset is cleared. -/
theorem ran_cleared (reach : Reach
      (Starts needs (higgsTrainingPipeline libraries contexts fresh order table storage p jobId)) (.start files) run)
    (ran : run.ended task ≠ none)
    (behind : task ∉ [Component.loadTrainingDataset, .validateTrainingDataset]) :
    Cleared libraries fresh order table p := by
  obtain ⟨past, between, rest, split, sequenced⟩ :=
    (Job.progress taskOrder_chain taskOrder_nodup mem_taskOrder reach).before ran
  rw [taskOrder] at split
  cases first : past.map Prod.fst with
  | nil =>
    rw [first] at split
    cases split
    exact absurd List.mem_cons_self behind
  | cons load others =>
    rw [first] at split
    cases others with
    | nil =>
      cases split
      exact absurd (List.mem_cons_of_mem _ List.mem_cons_self) behind
    | cons validate more =>
      cases (List.cons.inj split).1
      cases (List.cons.inj (List.cons.inj split).2).1
      exact cleared_of_sequenced first sequenced

theorem thousandLabels_cleared : Cleared leafLibraries (.ok {}) (.stable _) thousandLabels allLabels.params := by
  obtain ⟨run, reach, -, result, registered⟩ := thousandLabels_run
  have ran : run.ended .registerModel ≠ none := by
    rw [registered]
    exact Option.some_ne_none _
  exact ran_cleared reach ran (by decide)

/-- The entries of other names. -/
def without {Value : Type} (names : List String) (entries : List (String × Value)) : List (String × Value) :=
  entries.filter fun entry => entry.1 ∉ names

section SameGate

variable (sameGate : p.minRows = defaultMinRows) {workdir : Path} {stored left : Path → Option (Artifact Model)}

include sameGate

end SameGate

end Kubeflow

end Amel
