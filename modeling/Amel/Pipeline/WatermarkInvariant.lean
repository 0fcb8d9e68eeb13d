import Amel.Pipeline.Alone

namespace Amel

open Transition (Reach Guarded)

/-- The two streams with a watermark each. -/
inductive Stream
  | features
  | labels
  deriving DecidableEq, Repr

def Stream.pipelineName : Stream → String
  | features => featuresPipeline
  | labels => labelsPipeline

def WatermarkBounds.lower (bounds : WatermarkBounds) : Stream → Int
  | .features => bounds.featuresWatermark
  | .labels => bounds.labelsWatermark

/-- The stored watermark of a stream. -/
def World.watermark (s : World) (stream : Stream) : Int := s.watermarks.get stream.pipelineName

def PipelineRun.watermarkAfter (row : PipelineRun) : Stream → Option Int
  | .features => row.featuresWatermarkAfter
  | .labels => row.labelsWatermarkAfter

/-- The curated commit of the current bounds lies behind the run. -/
def DagRun.HasCommitted (p : DagRun) : Prop :=
  p.curated.isSome = true ∨ ∃ features labels, p.position = .curatedCommitted features labels

variable {pipeline : Pipeline} {id : String} {s after : World} {p next : DagRun} {action : RunAction}

theorem World.watermark_commitCurated (s : World) (runId : String) {bounds : WatermarkBounds}
    (extraction : Extraction)
    (featuresDf : List FeatureRow) (labelsDf : List LabelRow) (stream : Stream)
    (later : Watermarks.epoch < bounds.upperBound) :
    (s.commitCurated runId bounds extraction featuresDf labelsDf).watermark stream =
      max (s.watermark stream) bounds.upperBound := by
  have different : featuresPipeline ≠ labelsPipeline := by decide
  cases stream with
  | features =>
    change ((s.watermarks.advance featuresPipeline _).advance labelsPipeline _).get featuresPipeline = _
    rw [Watermarks.get_advance_of_ne _ different, Watermarks.get_advance_self _ _ later]
    rfl
  | labels =>
    change ((s.watermarks.advance featuresPipeline _).advance labelsPipeline _).get labelsPipeline = _
    rw [Watermarks.get_advance_self _ _ later, Watermarks.get_advance_of_ne _ different.symm]
    rfl

namespace Pipeline.Act

theorem bounds (taken : pipeline.Act id s p action after next) :
    next.bounds = p.bounds ∨ next.bounds = none ∨
      ∃ featuresWatermark, p.position = .featuresWatermarkRead featuresWatermark ∧
        next.bounds = some ⟨featuresWatermark, s.watermark .labels, pipeline.upperBound id⟩ := by
  cases taken with
  | readLabelsWatermark read => exact Or.inr (Or.inr ⟨_, read, rfl⟩)
  | clear =>
    unfold DagRun.clearFrom
    dsimp only
    split
    · exact Or.inl rfl
    · exact Or.inr (Or.inl rfl)
  | _ => exact Or.inl rfl

theorem featuresWatermarkRead (taken : pipeline.Act id s p action after next) {featuresWatermark : Int}
    (read : next.position = .featuresWatermarkRead featuresWatermark) :
    featuresWatermark = s.watermark .features ∨ p.position = .featuresWatermarkRead featuresWatermark := by
  cases taken with
  | readFeaturesWatermark => cases read; exact Or.inl rfl
  | validateFails => exact Or.inr read
  | _ => cases read

theorem hasCommitted (taken : pipeline.Act id s p action after next) (committed : next.HasCommitted) :
    p.HasCommitted ∨ action = .commitCurated := by
  cases taken with
  | commitCurated => exact Or.inr rfl
  | finishCurated atPosition => exact Or.inl (Or.inr ⟨_, _, atPosition⟩)
  | validateFails => exact Or.inl committed
  | clear =>
    rcases committed with curated | ⟨features, labels, atPosition⟩
    · unfold DagRun.clearFrom at curated
      dsimp only at curated
      split at curated
      · exact Or.inl (Or.inl curated)
      · cases curated
    · cases atPosition
  | _ =>
    rcases committed with curated | ⟨features, labels, atPosition⟩
    · exact Or.inl (Or.inl curated)
    · cases atPosition

/-- The run records change by `_record_pipeline_run` of a failure or of the
run's success. -/
theorem records (taken : pipeline.Act id s p action after next) :
    after.pipelineRuns = s.pipelineRuns ∨
    (∃ task error, after.pipelineRuns = (pipeline.recordFailure s id task error).pipelineRuns) ∨
    ∃ bounds extraction bronzeKeys silverKeys validated curated gold, p.bounds = some bounds ∧
      p.curated = some curated ∧ after.pipelineRuns =
        (pipeline.recordSuccess s id bounds extraction bronzeKeys silverKeys validated curated gold).pipelineRuns := by
  cases taken with
  | recordSuccess _ atBounds _ _ _ _ atCurated =>
    exact Or.inr (Or.inr ⟨_, _, _, _, _, _, _, atBounds, atCurated, rfl⟩)
  | giveUp =>
    split
    · exact Or.inr (Or.inl ⟨_, _, rfl⟩)
    · exact Or.inl rfl
  | _ =>
    refine Or.inl ?_
    simp only [World.stage, World.putBronze, World.putSilver, World.putReport, World.commitCurated,
      World.upsertTraining, World.putGold, writeValidated]

end Pipeline.Act

/-- What a run knows of the watermarks stays at or below what is stored. -/
structure DagRun.Bounded (pipeline : Pipeline) (id : String) (s : World) (p : DagRun) : Prop where
  upper : ∀ bounds, p.bounds = some bounds → bounds.upperBound = pipeline.upperBound id
  lower : ∀ bounds, p.bounds = some bounds → ∀ stream, bounds.lower stream ≤ s.watermark stream
  read : ∀ featuresWatermark, p.position = .featuresWatermarkRead featuresWatermark →
    featuresWatermark ≤ s.watermark .features
  committed : p.HasCommitted → ∀ stream, pipeline.upperBound id ≤ s.watermark stream

theorem DagRun.Bounded.mono (bounded : p.Bounded pipeline id s)
    (rises : ∀ stream, s.watermark stream ≤ after.watermark stream) : p.Bounded pipeline id after where
  upper := bounded.upper
  lower bounds atBounds stream := (bounded.lower bounds atBounds stream).trans (rises stream)
  read value atValue := (bounded.read value atValue).trans (rises .features)
  committed done stream := (bounded.committed done stream).trans (rises stream)

/-- The watermarks and the commits after a step: as they were, or raised
to the run's upper bound with its commit on record. -/
theorem Pipeline.Act.watermark (taken : pipeline.Act id s p action after next) (bounded : p.Bounded pipeline id s) :
    (action ≠ .commitCurated ∧ after.commits = s.commits ∧ ∀ stream, after.watermark stream = s.watermark stream) ∨
    ∃ bounds extraction, p.bounds = some bounds ∧ p.extraction = some extraction ∧
      bounds.upperBound = pipeline.upperBound id ∧ after.commits = s.commits ++ [⟨id, bounds, extraction⟩] ∧
      ∀ stream, after.watermark stream = max (s.watermark stream) bounds.upperBound := by
  rcases taken.curates with
    ⟨other, -, -, watermarks, commits⟩ | ⟨bounds, extraction, _, _, -, atBounds, atPosition, -, -, rfl⟩
  · exact Or.inl ⟨other, commits, fun stream => by rw [World.watermark, watermarks, World.watermark]⟩
  · have upper := bounded.upper bounds atBounds
    have later : Watermarks.epoch < bounds.upperBound := by
      rw [upper]
      exact pipeline.upperBound_after id
    exact Or.inr ⟨bounds, extraction, atBounds, atPosition, upper, rfl,
      fun stream => s.watermark_commitCurated id extraction _ _ stream later⟩

theorem Pipeline.Act.rises (taken : pipeline.Act id s p action after next) (bounded : p.Bounded pipeline id s)
    (stream : Stream) : s.watermark stream ≤ after.watermark stream := by
  rcases taken.watermark bounded with ⟨-, -, same⟩ | ⟨bounds, -, -, -, -, -, raised⟩
  · exact (same stream).ge
  · exact (raised stream).ge.trans' (le_max_left _ _)

theorem DagRun.Bounded.step (bounded : p.Bounded pipeline id s) (taken : pipeline.Act id s p action after next) :
    next.Bounded pipeline id after := by
  have rises := taken.rises bounded
  refine ⟨fun bounds atBounds => ?_, fun bounds atBounds stream => ?_, fun value atValue => ?_, fun done stream => ?_⟩
  · rcases taken.bounds with same | none | ⟨value, -, fresh⟩
    · exact bounded.upper bounds (same ▸ atBounds)
    · cases none.symm.trans atBounds
    · cases fresh.symm.trans atBounds
      rfl
  · rcases taken.bounds with same | none | ⟨value, read, fresh⟩
    · exact (bounded.lower bounds (same ▸ atBounds) stream).trans (rises stream)
    · cases none.symm.trans atBounds
    · cases fresh.symm.trans atBounds
      cases stream with
      | features => exact (bounded.read value read).trans (rises .features)
      | labels => exact rises .labels
  · rcases taken.featuresWatermarkRead atValue with fresh | old
    · exact fresh.le.trans (rises .features)
    · exact (bounded.read value old).trans (rises .features)
  · rcases taken.hasCommitted done with before | isCommit
    · exact (bounded.committed before stream).trans (rises stream)
    · rcases taken.watermark bounded with ⟨other, -, -⟩ | ⟨bounds, -, -, -, upper, -, raised⟩
      · exact absurd isCommit other
      · rw [raised stream, upper]
        exact le_max_right _ _

/-- What the stored watermarks say: they are the maximum of the committed
upper bounds, no record is ahead of them, and the committed windows leave
no gap below them. -/
structure World.Watermarked (s : World) : Prop where
  maximum : ∀ stream, s.watermark stream = (s.commits.map (·.bounds.upperBound)).foldl max Watermarks.epoch
  recorded : ∀ runId row stream value, s.pipelineRuns runId = some row → row.watermarkAfter stream = some value →
    value ≤ s.watermark stream
  covered : ∀ stream t, Watermarks.epoch < t → t ≤ s.watermark stream →
    ∃ commit ∈ s.commits, commit.bounds.lower stream < t ∧ t ≤ commit.bounds.upperBound

theorem World.Watermarked.congr (watermarked : s.Watermarked) (watermarks : after.watermarks = s.watermarks)
    (commits : after.commits = s.commits) (runs : after.pipelineRuns = s.pipelineRuns) : after.Watermarked := by
  have same (stream : Stream) : after.watermark stream = s.watermark stream := by
    rw [World.watermark, watermarks, World.watermark]
  refine ⟨fun stream => ?_, fun runId row stream value => ?_, fun stream t => ?_⟩
  · rw [same, commits]
    exact watermarked.maximum stream
  · rw [same, runs]
    exact watermarked.recorded runId row stream value
  · rw [same, commits]
    exact watermarked.covered stream t

/-- No record of a run is ahead of the watermarks. -/
theorem World.Watermarked.recorded_step (watermarked : s.Watermarked) (bounded : p.Bounded pipeline id s)
    (taken : pipeline.Act id s p action after next) {runId : String} {row : PipelineRun} {stream : Stream}
    {value : Int} (stored : after.pipelineRuns runId = some row) (atWatermark : row.watermarkAfter stream = some value) :
    value ≤ s.watermark stream := by
  have kept (written : PipelineRun) (startedAt : Int)
      (same : written.watermarkAfter stream = ((s.pipelineRuns id).getD
        { runId := id, dagId := "higgs_pipeline", status := "", startedAt }).watermarkAfter stream)
      (held : written.watermarkAfter stream = some value) : value ≤ s.watermark stream := by
    rw [same] at held
    cases before : s.pipelineRuns id with
    | none => rw [before] at held; cases stream <;> cases held
    | some old => rw [before] at held; exact watermarked.recorded id old stream value before held
  rcases taken.records with unchanged | ⟨task, error, failed⟩ |
    ⟨bounds, extraction, bronzeKeys, silverKeys, validated, curated, gold, atBounds, atCurated, succeeded⟩
  · exact watermarked.recorded runId row stream value (unchanged ▸ stored) atWatermark
  · rw [failed] at stored
    by_cases same : runId = id
    · subst same
      cases (Function.update_self _ _ s.pipelineRuns).symm.trans stored
      exact kept _ _ (by cases stream <;> rfl) atWatermark
    · exact watermarked.recorded runId row stream value
        ((Function.update_of_ne same _ s.pipelineRuns).symm.trans stored) atWatermark
  · rw [succeeded] at stored
    by_cases same : runId = id
    · subst same
      cases (Function.update_self _ _ s.pipelineRuns).symm.trans stored
      have isUpper : some bounds.upperBound = some value := by cases stream <;> exact atWatermark
      cases isUpper
      rw [bounded.upper bounds atBounds]
      exact bounded.committed (Or.inl (by rw [atCurated]; rfl)) stream
    · exact watermarked.recorded runId row stream value
        ((Function.update_of_ne same _ s.pipelineRuns).symm.trans stored) atWatermark

/-- One step of a run keeps the watermarks in order. A new window starts at
a value that was stored before, so it meets what is covered already. -/
theorem World.Watermarked.step (watermarked : s.Watermarked) (bounded : p.Bounded pipeline id s)
    (taken : pipeline.Act id s p action after next) : after.Watermarked := by
  refine ⟨fun stream => ?_, fun runId row stream value stored atWatermark =>
    (watermarked.recorded_step bounded taken stored atWatermark).trans (taken.rises bounded stream),
    fun stream t late early => ?_⟩
  · rcases taken.watermark bounded with ⟨-, commits, same⟩ | ⟨bounds, extraction, -, -, -, commits, raised⟩
    · rw [same, commits]
      exact watermarked.maximum stream
    · rw [raised, commits, List.map_append, List.foldl_append, ← watermarked.maximum stream]
      rfl
  · rcases taken.watermark bounded with ⟨-, commits, same⟩ | ⟨bounds, extraction, atBounds, -, -, commits, raised⟩
    · rw [commits]
      exact watermarked.covered stream t late (same stream ▸ early)
    · rw [commits]
      rcases le_or_gt t (s.watermark stream) with old | new
      · obtain ⟨commit, member, inside⟩ := watermarked.covered stream t late old
        exact ⟨commit, List.mem_append_left _ member, inside⟩
      · have below : t ≤ bounds.upperBound := by
          have := raised stream ▸ early
          omega
        have started := bounded.lower bounds atBounds stream
        exact ⟨_, List.mem_append_right _ (List.mem_singleton.mpr rfl), lt_of_le_of_lt started new, below⟩

theorem LakeEvent.Happens.lake {event : LakeEvent} (happened : LakeEvent.Happens s event after) :
    after.watermarks = s.watermarks ∧ after.commits = s.commits ∧ after.pipelineRuns = s.pipelineRuns := by
  cases happened <;> exact ⟨rfl, rfl, rfl⟩

theorem World.watermarked_initial (clock : Int) : World.Watermarked { clock } where
  maximum _ := rfl
  recorded _ _ _ _ stored := by cases stored
  covered _ _ late early := absurd late (not_lt.mpr early)

theorem DagRun.bounded_idle (pipeline : Pipeline) (id : String) (s : World) : DagRun.Bounded pipeline id s {} where
  upper _ atBounds := by cases atBounds
  lower _ atBounds := by cases atBounds
  read _ atValue := by cases atValue
  committed := by
    rintro (curated | ⟨_, _, atPosition⟩)
    · cases curated
    · cases atPosition

theorem Pipeline.watermarked_of_reach {clock : ℕ+} {lake : Lake}
    (reach : Reach pipeline.Step (.initial clock) lake) :
    lake.shared.Watermarked ∧ ∀ id, (lake.processes id).Bounded pipeline id lake.shared := by
  have base := And.intro (World.watermarked_initial (Watermarks.epoch + (clock : Nat)))
    fun id => DagRun.bounded_idle pipeline id (Lake.initial clock).shared
  refine Fleet.invariant World.Watermarked (DagRun.Bounded pipeline) reach.guardTrivially base ?_ ?_
  · intro before event after _ happened watermarked each
    obtain ⟨watermarks, commits, runs⟩ := happened.lake
    refine ⟨watermarked.congr watermarks commits runs, fun id => (each id).mono fun stream => ?_⟩
    rw [World.watermark, World.watermark, watermarks]
  · intro before id action after next _ taken watermarked each
    exact ⟨watermarked.step (each id) taken, (each id).step taken,
      fun other _ => (each other).mono fun stream => taken.rises (each id) stream⟩

/-- In every reachable state of any number of overlapping, failing, retried
and cleared runs the stored watermark of each stream never goes back
afterwards, is the maximum of the epoch and the committed upper bounds, is at
least every recorded `watermark_after`, and the committed windows
`(lower, upper]` cover everything from the epoch up to it. -/
theorem Pipeline.watermark_invariant {clock : ℕ+} {lake : Lake} (reach : Reach pipeline.Step (.initial clock) lake)
    (stream : Stream) :
    (∀ later, Reach pipeline.Step lake later → lake.shared.watermark stream ≤ later.shared.watermark stream) ∧
    lake.shared.watermark stream =
      (lake.shared.commits.map (·.bounds.upperBound)).foldl max Watermarks.epoch ∧
    (∀ runId row value, lake.shared.pipelineRuns runId = some row → row.watermarkAfter stream = some value →
      value ≤ lake.shared.watermark stream) ∧
    ∀ t, Watermarks.epoch < t → t ≤ lake.shared.watermark stream →
      ∃ commit ∈ lake.shared.commits, commit.bounds.lower stream < t ∧ t ≤ commit.bounds.upperBound := by
  obtain ⟨watermarked, -⟩ := watermarked_of_reach reach
  refine ⟨fun later onwards => ?_, watermarked.maximum stream,
    fun runId row value => watermarked.recorded runId row stream value, watermarked.covered stream⟩
  refine onwards.invariant (fun state => lake.shared.watermark stream ≤ state.shared.watermark stream) le_rfl ?_
  rintro before action after between below taken
  obtain ⟨-, each⟩ := watermarked_of_reach (reach.trans between)
  cases taken with
  | environment happened =>
    obtain ⟨watermarks, -, -⟩ := happened.lake
    exact below.trans (congrArg (·.get stream.pipelineName) watermarks).ge
  | process happened => exact below.trans (happened.rises (each _) stream)

theorem Pipeline.first_commit_covered :
    let pipeline := Pipeline.accepting (fun _ => 10) fun _ => by decide
    ∃ lake, Reach pipeline.Step (.initial 20) lake ∧ lake.shared.watermark .labels = 10 ∧
      ∀ t, Watermarks.epoch < t → t ≤ lake.shared.watermark .labels →
        ∃ commit ∈ lake.shared.commits, commit.bounds.lower .labels < t ∧ t ≤ commit.bounds.upperBound := by
  intro pipeline
  have start : Reach (Guarded pipeline.Step fun _ _ => True) (.initial 20) _ := Lake.reach_initial 20 "first"
  obtain ⟨after, reach, prepared⟩ := reach_prepared start rfl (by decide : (10 : Int) ≤ 20)
    (gatePasses_accepting _ _ _ _ _) (fun _ _ _ => trivial)
  have committed := (Fleet.reach_act reach
    (.commitCurated rfl rfl rfl prepared.silverFeatures prepared.silverLabels) trivial).forget_guard
  obtain ⟨-, maximum, -, covered⟩ := watermark_invariant committed .labels
  have none_before : after.commits = [] := by rw [prepared.frame]
  refine ⟨_, committed, maximum.trans ?_, covered⟩
  rw [World.commitCurated, none_before]
  rfl

end Amel
