import Amel.Pipeline.WatermarkInvariant

namespace Amel

/-- What `emit_pipeline_metadata` has from the tasks before it. -/
structure RunOutcome where
  bounds : WatermarkBounds
  extraction : Extraction
  bronzeKeys : String × String
  silverKeys : String × String
  validated : Validated
  curated : Nat × Nat
  gold : Nat × Option String

/-- The two ways in which the row of a run is written. -/
inductive Recording
  | failure (task : Task) (error : String)
  | success (outcome : RunOutcome)

namespace Recording

def isFailure : Recording → Bool
  | failure _ _ => true
  | success _ => false

def write (pipeline : Pipeline) (runId : String) (s : World) : Recording → World
  | failure task error => pipeline.recordFailure s runId task error
  | success o =>
    pipeline.recordSuccess s runId o.bounds o.extraction o.bronzeKeys o.silverKeys o.validated o.curated o.gold

end Recording

/-- A recording and the state in which it is made. -/
structure Moment where
  world : World
  recording : Recording

variable {pipeline : Pipeline} {runId : String}

namespace Moment

def written (pipeline : Pipeline) (runId : String) (m : Moment) : World := m.recording.write pipeline runId m.world

/-- The row that describes exactly what is recorded: the error of a failure
and no results, the results of a success and no error. -/
def description (pipeline : Pipeline) (runId : String) (m : Moment) : PipelineRun :=
  let blank : PipelineRun :=
    { runId, dagId := "higgs_pipeline", status := "", startedAt := pipeline.startedAt m.world runId }
  match m.recording with
  | .failure task error =>
    { blank with
      status := "failed", errorMessage := some (String.ofList ((task.taskId ++ ": " ++ error).toList.take 2000))
      finishedAt := some m.world.clock }
  | .success o =>
    { blank with
      status := "success"
      featuresWatermarkBefore := some o.bounds.featuresWatermark, featuresWatermarkAfter := some o.bounds.upperBound
      labelsWatermarkBefore := some o.bounds.labelsWatermark, labelsWatermarkAfter := some o.bounds.upperBound
      extractedFeatures := some o.extraction.features.length, extractedLabels := some o.extraction.labels.length
      invalidFeatures := some o.validated.invalidFeatures, invalidLabels := some o.validated.invalidLabels
      curatedFeaturesUpserted := some o.curated.1, curatedLabelsUpserted := some o.curated.2
      trainingRecordsNew := some o.gold.1
      bronzeFeaturesKey := some o.bronzeKeys.1, bronzeLabelsKey := some o.bronzeKeys.2
      silverFeaturesKey := some o.silverKeys.1, silverLabelsKey := some o.silverKeys.2
      goldTrainingKey := o.gold.2, validationReportKey := some o.validated.reportKey
      finishedAt := some m.world.clock }

/-- After the recording the row describes exactly what it recorded. -/
def Exact (pipeline : Pipeline) (runId : String) (m : Moment) : Prop :=
  (m.written pipeline runId).pipelineRuns runId = some (m.description pipeline runId)

variable {m previous : Moment}

theorem exact_of_none (fresh : m.world.pipelineRuns runId = none) : m.Exact pipeline runId := by
  obtain ⟨s, recording⟩ := m
  change s.pipelineRuns runId = none at fresh
  cases recording with
  | failure task error =>
    simp only [Exact, written, Recording.write, Pipeline.recordFailure, World.recordPipelineRun, Function.update_self,
      fresh, Option.getD_none, description]
  | success outcome =>
    simp only [Exact, written, Recording.write, Pipeline.recordSuccess, World.recordPipelineRun, Function.update_self,
      fresh, Option.getD_none, description]

/-- On top of a row that describes one recording, the next is described
exactly if it is of the same kind: the columns of the other kind stay. -/
theorem exact_iff (before : m.world.pipelineRuns runId = some (previous.description pipeline runId)) :
    m.Exact pipeline runId ↔ m.recording.isFailure = previous.recording.isFailure := by
  obtain ⟨s, recording⟩ := m
  obtain ⟨earlier, last⟩ := previous
  change s.pipelineRuns runId = _ at before
  cases recording with
  | failure task error =>
    simp only [Exact, written, Recording.write, Pipeline.recordFailure, World.recordPipelineRun, Function.update_self,
      before, Option.getD_some, Recording.isFailure]
    cases last with
    | failure lastTask lastError => simp [description]
    | success lastOutcome => simp [description]
  | success outcome =>
    simp only [Exact, written, Recording.write, Pipeline.recordSuccess, World.recordPipelineRun, Function.update_self,
      before, Option.getD_some, Recording.isFailure]
    cases last with
    | failure lastTask lastError => simp [description]
    | success lastOutcome => simp [description]

end Moment

/-- Between two recordings for a run its row stays as it is. -/
def Linked (pipeline : Pipeline) (runId : String) : Option PipelineRun → List Moment → Prop
  | _, [] => True
  | row, m :: later =>
    m.world.pipelineRuns runId = row ∧ Linked pipeline runId ((m.written pipeline runId).pipelineRuns runId) later

theorem exact_of_linked {previous : Moment} {later : List Moment}
    (linked : Linked pipeline runId (some (previous.description pipeline runId)) later) :
    (∀ m ∈ later, m.Exact pipeline runId) ↔ ∀ m ∈ later, m.recording.isFailure = previous.recording.isFailure := by
  induction later generalizing previous with
  | nil => simp
  | cons m later ih =>
    obtain ⟨before, linked⟩ := linked
    rw [List.forall_mem_cons, List.forall_mem_cons, Moment.exact_iff before]
    refine and_congr_right fun same => ?_
    have exactly := (Moment.exact_iff before).mpr same
    rw [Moment.Exact] at exactly
    rw [exactly] at linked
    rw [ih linked, same]

/-- **The run record.** Over every sequence of recordings for a run that had
none, the row describes the last outcome after each of them exactly if all
are failures or all are successes. -/
theorem record_exact_iff {history : List Moment} (linked : Linked pipeline runId none history) :
    (∀ m ∈ history, m.Exact pipeline runId) ↔
      (∀ m ∈ history, m.recording.isFailure = true) ∨ ∀ m ∈ history, m.recording.isFailure = false := by
  cases history with
  | nil => simp
  | cons first later =>
    obtain ⟨fresh, linked⟩ := linked
    have exactly : first.Exact pipeline runId := Moment.exact_of_none fresh
    have described := exactly
    rw [Moment.Exact] at described
    rw [described] at linked
    rw [List.forall_mem_cons, exact_of_linked linked, and_iff_right exactly, List.forall_mem_cons, List.forall_mem_cons]
    cases first.recording.isFailure with
    | true => simp
    | false => simp

/-- A run whose gate failed, and one that came to its end. -/
def samplePipeline : Pipeline := .accepting (fun _ => Watermarks.epoch + 1) fun _ => by omega

def sampleFailure (s : World) : Moment := ⟨s, .failure .validate "too many invalid rows"⟩

def sampleSuccess (s : World) : Moment :=
  ⟨s, .success ⟨⟨0, 0, 1⟩, ⟨[], [], [], []⟩, ("bronze", "bronze"), ("silver", "silver"), ⟨0, 0, "report"⟩, (0, 0),
    (0, none)⟩⟩

theorem failed_twice_exact :
    let once := sampleFailure { clock := 1 }
    let history := [once, sampleFailure (once.written samplePipeline "run")]
    (∀ m ∈ history, m.Exact samplePipeline "run") ↔
      (∀ m ∈ history, m.recording.isFailure = true) ∨ ∀ m ∈ history, m.recording.isFailure = false :=
  record_exact_iff ⟨rfl, rfl, trivial⟩

/-- A run that failed and succeeded when it was cleared keeps its error, and
one that succeeded and failed when it was cleared keeps its results. -/
theorem cleared_run_stale :
    let failed := sampleFailure { clock := 1 }
    let succeeds := sampleSuccess (failed.written samplePipeline "run")
    let succeeded := sampleSuccess { clock := 1 }
    let fails := sampleFailure (succeeded.written samplePipeline "run")
    Linked samplePipeline "run" none [failed, succeeds] ∧
      ((succeeds.written samplePipeline "run").pipelineRuns "run").map (fun row => (row.status, row.errorMessage)) =
        some ("success", some "validate_task: too many invalid rows") ∧
      Linked samplePipeline "run" none [succeeded, fails] ∧
      ((fails.written samplePipeline "run").pipelineRuns "run").map
          (fun row => (row.status, row.extractedFeatures, row.featuresWatermarkAfter, row.silverFeaturesKey)) =
        some ("failed", some 0, some 1, some "silver") := by
  refine ⟨⟨rfl, rfl, trivial⟩, ?_, ⟨rfl, rfl, trivial⟩, ?_⟩
  · decide +kernel
  · decide +kernel

/-- Every step of a run leaves the row of another run alone, and leaves its
own alone or records in it. -/
theorem row_changes {id : String} {s after : World} {p next : DagRun} {action : RunAction}
    (taken : pipeline.Act id s p action after next) :
    (∀ other, other ≠ id → after.pipelineRuns other = s.pipelineRuns other) ∧
      (after.pipelineRuns id = s.pipelineRuns id ∨
        ∃ recording : Recording, after.pipelineRuns id = (recording.write pipeline id s).pipelineRuns id) := by
  rcases taken.records with unchanged | ⟨task, error, failed⟩ |
    ⟨bounds, extraction, bronzeKeys, silverKeys, validated, curated, gold, -, -, succeeded⟩
  · exact ⟨fun other _ => by rw [unchanged], Or.inl (by rw [unchanged])⟩
  · rw [failed]
    exact ⟨fun other different => Function.update_of_ne different .., Or.inr ⟨.failure task error, rfl⟩⟩
  · rw [succeeded]
    exact ⟨fun other different => Function.update_of_ne different ..,
      Or.inr ⟨.success ⟨bounds, extraction, bronzeKeys, silverKeys, validated, curated, gold⟩, rfl⟩⟩

end Amel
