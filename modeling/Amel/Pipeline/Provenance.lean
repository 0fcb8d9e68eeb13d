import Amel.Pipeline.ChangeCapture

namespace Amel

open Transition (Reach Guarded)

variable {pipeline : Pipeline} {id : String} {s after : World} {p next : DagRun} {action : RunAction}

/-- Every row of a frame was made of a landed row. -/
def TakenFrom {Landed Row : Type} (toRow : Landed → Row) (landed : List Landed) (df : List Row) : Prop :=
  ∀ row ∈ df, ∃ r ∈ landed, row = toRow r

def FromFeatures (landing : Landing) (df : List FeatureRow) : Prop :=
  TakenFrom HiggsFeatureEvent.toRow landing.features df

def FromLabels (landing : Landing) (df : List LabelRow) : Prop :=
  TakenFrom HiggsLabelEvent.toRow landing.labels df

namespace TakenFrom

variable {Landed Row : Type} {toRow : Landed → Row} {landed later : List Landed} {df fewer : List Row}

theorem mono (taken : TakenFrom toRow landed df) (grows : landed ⊆ later) : TakenFrom toRow later df := by
  intro row member
  obtain ⟨r, inLanded, same⟩ := taken row member
  exact ⟨r, grows inLanded, same⟩

/-- Leaving rows out and putting them in another order changes nothing. -/
theorem part (taken : TakenFrom toRow landed df) (subset : fewer ⊆ df) : TakenFrom toRow landed fewer :=
  fun row member => taken row (subset member)

theorem map {rows : List Landed} (subset : rows ⊆ landed) : TakenFrom toRow landed (rows.map toRow) := by
  intro row member
  obtain ⟨r, inRows, rfl⟩ := List.mem_map.mp member
  exact ⟨r, subset inRows, rfl⟩

end TakenFrom

/-- The files of a staging directory hold rows that landed. -/
structure Staging.Sourced (landing : Landing) (files : Staging) : Prop where
  rawFeatures : ∀ df, files.rawFeatures = some df → FromFeatures landing df
  rawLabels : ∀ df, files.rawLabels = some df → FromLabels landing df
  validFeatures : ∀ df, files.validFeatures = some df → FromFeatures landing df
  validLabels : ∀ df, files.validLabels = some df → FromLabels landing df
  silverFeatures : ∀ df, files.silverFeatures = some df → FromFeatures landing df
  silverLabels : ∀ df, files.silverLabels = some df → FromLabels landing df

/-- A training record joins a landed feature event and a landed label event
of one entity. -/
def Joins (landing : Landing) (t : CuratedTrainingRecord) : Prop :=
  ∃ f ∈ landing.features, ∃ l ∈ landing.labels, f.entityId = l.entityId ∧ t.entityId = f.entityId ∧
    t.featureEventId = f.eventId ∧ t.labelEventId = l.eventId ∧ t.target = l.target

structure World.Sourced (s : World) : Prop where
  staging : ∀ directory, (s.staging directory).Sourced s.landing
  curatedFeatures : ∀ c ∈ s.curatedFeatures, ∃ r ∈ s.landing.features, ∃ runId, c = r.toRow.curated runId
  curatedLabels : ∀ c ∈ s.curatedLabels, ∃ r ∈ s.landing.labels, ∃ runId, c = r.toRow.curated runId
  trainingRecords : ∀ t ∈ s.trainingRecords, Joins s.landing t

structure DagRun.Sourced (s : World) (p : DagRun) : Prop where
  extracted : ∀ features openAtFeatures, p.position = .featuresExtracted features openAtFeatures →
    ∀ r ∈ features, r ∈ s.landing.features
  built : ∀ df, p.position = .trainingBuilt df → ∀ t ∈ df, Joins s.landing t

theorem Staging.sourced_empty (landing : Landing) : Staging.Sourced landing {} :=
  ⟨nofun, nofun, nofun, nofun, nofun, nofun⟩

theorem Staging.Sourced.mono {landing later : Landing} {files : Staging} (sourced : files.Sourced landing)
    (grows : landing.Extends later) : files.Sourced later where
  rawFeatures df atFile := (sourced.rawFeatures df atFile).mono grows.1.subset
  rawLabels df atFile := (sourced.rawLabels df atFile).mono grows.2.subset
  validFeatures df atFile := (sourced.validFeatures df atFile).mono grows.1.subset
  validLabels df atFile := (sourced.validLabels df atFile).mono grows.2.subset
  silverFeatures df atFile := (sourced.silverFeatures df atFile).mono grows.1.subset
  silverLabels df atFile := (sourced.silverLabels df atFile).mono grows.2.subset

theorem Joins.mono {landing later : Landing} {t : CuratedTrainingRecord} (joins : Joins landing t)
    (grows : landing.Extends later) : Joins later t := by
  obtain ⟨f, feature, l, label, joined⟩ := joins
  exact ⟨f, grows.1.subset feature, l, grows.2.subset label, joined⟩

/-- What holds of all directories holds of them all after one is changed, if
it holds of the changed one. -/
theorem World.stage_all {holds : Staging → Prop} (change : Staging → Staging)
    (all : ∀ directory, holds (s.staging directory)) (staged : holds (change (s.staging (Keys.safeRunId id))))
    (directory : String) : holds ((s.stage id change).staging directory) := by
  by_cases same : directory = Keys.safeRunId id
  · simpa only [stage, same, Function.update_self] using staged
  · simpa only [stage, Function.update_of_ne same] using all directory

theorem Staging.Sourced.validated {landing : Landing} {files : Staging} (sourced : files.Sourced landing)
    (pipeline : Pipeline) {featuresDf : List FeatureRow} {labelsDf : List LabelRow}
    (features : files.rawFeatures = some featuresDf) (labels : files.rawLabels = some labelsDf) (now : Int) :
    Staging.Sourced landing { files with
      validFeatures := some (pipeline.validateFeatures now featuresDf).1
      validLabels := some (pipeline.validateLabels now labelsDf).1 } :=
  { sourced with
    validFeatures := fun df atFile => by
      cases atFile
      exact (sourced.rawFeatures _ features).part (validate_sublist _ _).subset
    validLabels := fun df atFile => by
      cases atFile
      exact (sourced.rawLabels _ labels).part (validate_sublist _ _).subset }

theorem World.Sourced.writeValidated (sourced : s.Sourced) {featuresDf : List FeatureRow} {labelsDf : List LabelRow}
    (features : (s.staging (Keys.safeRunId id)).rawFeatures = some featuresDf)
    (labels : (s.staging (Keys.safeRunId id)).rawLabels = some labelsDf) (directory : String) :
    ((pipeline.writeValidated s id featuresDf labelsDf).staging directory).Sourced s.landing := by
  have files := (sourced.staging (Keys.safeRunId id)).validated pipeline features labels s.clock
  exact World.stage_all (fun files =>
    { files with
      validFeatures := some (pipeline.validateFeatures s.clock featuresDf).1
      validLabels := some (pipeline.validateLabels s.clock labelsDf).1 }) sourced.staging files directory

/-- No task stages a row that did not land. -/
theorem World.Sourced.staging_step (sourced : s.Sourced) (own : p.Sourced s)
    (taken : pipeline.Act id s p action after next) (directory : String) :
    (after.staging directory).Sourced s.landing := by
  have files := sourced.staging (Keys.safeRunId id)
  cases taken with
  | @extractLabels bounds features _ atPosition =>
    refine World.stage_all _ sourced.staging { files with rawFeatures := ?_, rawLabels := ?_ } directory
    · rintro _ ⟨⟩
      exact .map (own.extracted _ _ atPosition)
    · rintro _ ⟨⟩
      exact .map fun r extracted => (mem_selectLabels.mp extracted).1
  | validatePasses _ features labels => exact sourced.writeValidated features labels directory
  | validateFails _ features labels => exact sourced.writeValidated features labels directory
  | transform _ features labels =>
    refine World.stage_all _ sourced.staging { files with silverFeatures := ?_, silverLabels := ?_ } directory
    · rintro _ ⟨⟩
      exact (files.validFeatures _ features).part fun row member => (List.mem_insertionSort _).mp member
    · rintro _ ⟨⟩
      exact (files.validLabels _ labels).part fun row member => (List.mem_insertionSort _).mp member
  | finish => exact World.stage_all _ sourced.staging (Staging.sourced_empty _) directory
  | giveUp => split <;> exact sourced.staging directory
  | _ => exact sourced.staging directory

/-- What the join returns joins landed rows. -/
theorem World.Sourced.joins (sourced : s.Sourced) {runId : String} {t : CuratedTrainingRecord}
    (member : t ∈ buildTrainingDataset s.curatedFeatures s.curatedLabels s.trainingRecords runId) :
    Joins s.landing t := by
  obtain ⟨feat, inFeatures, member⟩ := List.mem_flatMap.mp member
  obtain ⟨label, matched, rfl⟩ := List.mem_map.mp member
  obtain ⟨inLabels, same⟩ := List.mem_filter.mp matched
  obtain ⟨f, landedFeature, _, rfl⟩ := sourced.curatedFeatures feat (List.mem_filter.mp inFeatures).1
  obtain ⟨l, landedLabel, _, rfl⟩ := sourced.curatedLabels label inLabels
  exact ⟨f, landedFeature, l, landedLabel, of_decide_eq_true same, rfl, rfl, rfl, rfl⟩

theorem World.Sourced.step (sourced : s.Sourced) (own : p.Sourced s)
    (taken : pipeline.Act id s p action after next) : after.Sourced := by
  obtain ⟨-, landing, -⟩ := taken.landing
  have staging := sourced.staging_step own taken
  have training : ∀ t ∈ after.trainingRecords, Joins s.landing t := by
    rcases taken.trains with ⟨-, -, same, -⟩ | ⟨df, -, built, rfl, -⟩ | ⟨df, count, -, -, -, rfl, -⟩
    · exact same ▸ sourced.trainingRecords
    · intro t member
      rw [World.upsertTraining, upsertTrainingRecords_fst] at member
      rcases KeyedTable.mem_insertIgnore _ member with old | new
      · exact sourced.trainingRecords t old
      · exact own.built df built t new
    · exact sourced.trainingRecords
  refine ⟨landing ▸ staging, ?_, ?_, landing ▸ training⟩
  all_goals
    rw [landing]
    rcases taken.curates with
      ⟨-, features, labels, -⟩ | ⟨_, _, featuresDf, labelsDf, -, -, -, atFeatures, atLabels, rfl⟩
  · exact features ▸ sourced.curatedFeatures
  · intro c member
    rw [World.commitCurated, updateCuratedFeatures_fst] at member
    rcases KeyedTable.mem_insertIgnore _ member with old | new
    · exact sourced.curatedFeatures c old
    · obtain ⟨row, inDf, rfl⟩ := List.mem_map.mp new
      obtain ⟨r, landed, rfl⟩ := (sourced.staging _).silverFeatures featuresDf atFeatures row inDf
      exact ⟨r, landed, id, rfl⟩
  · exact labels ▸ sourced.curatedLabels
  · intro c member
    rw [World.commitCurated, updateCuratedLabels_fst] at member
    rcases KeyedTable.mem_insertIgnore _ member with old | new
    · exact sourced.curatedLabels c old
    · obtain ⟨row, inDf, rfl⟩ := List.mem_map.mp new
      obtain ⟨r, landed, rfl⟩ := (sourced.staging _).silverLabels labelsDf atLabels row inDf
      exact ⟨r, landed, id, rfl⟩

theorem DagRun.Sourced.mono (own : p.Sourced s) (grows : s.landing.Extends after.landing) : p.Sourced after where
  extracted features openAtFeatures atPosition r member :=
    grows.1.subset (own.extracted features openAtFeatures atPosition r member)
  built df atPosition t member := (own.built df atPosition t member).mono grows

theorem Pipeline.Act.built (taken : pipeline.Act id s p action after next) {df : List CuratedTrainingRecord}
    (atPosition : next.position = .trainingBuilt df) :
    df.Perm (buildTrainingDataset s.curatedFeatures s.curatedLabels s.trainingRecords id) := by
  cases taken with
  | buildTraining _ returned => cases atPosition; exact returned
  | validateFails waiting => cases waiting.symm.trans atPosition
  | _ => cases atPosition

theorem DagRun.Sourced.step (world : s.Sourced) (taken : pipeline.Act id s p action after next) :
    next.Sourced after := by
  obtain ⟨-, landing, -⟩ := taken.landing
  refine ⟨fun features openAtFeatures atPosition r member => ?_, fun df atPosition t member => ?_⟩
  · obtain ⟨bounds, -, -, rfl, -⟩ := taken.featuresExtracted atPosition
    rw [landing]
    exact (mem_selectFeatures.mp member).1
  · rw [landing]
    exact world.joins ((taken.built atPosition).mem_iff.mp member)

theorem LakeEvent.Happens.extends {event : LakeEvent} (happened : LakeEvent.Happens s event after) :
    s.landing.Extends after.landing := by
  cases happened with
  | commitLanding => exact s.landing.extends_insert _ _
  | _ => exact Landing.Extends.refl _

theorem LakeEvent.Happens.curated {event : LakeEvent} (happened : LakeEvent.Happens s event after) :
    after.staging = s.staging ∧ after.curatedFeatures = s.curatedFeatures ∧ after.curatedLabels = s.curatedLabels ∧
      after.trainingRecords = s.trainingRecords := by
  cases happened <;> exact ⟨rfl, rfl, rfl, rfl⟩

theorem World.Sourced.happens (world : s.Sourced) {event : LakeEvent} (happened : LakeEvent.Happens s event after) :
    after.Sourced := by
  have grows := happened.extends
  obtain ⟨staging, features, labels, training⟩ := happened.curated
  refine ⟨fun directory => ?_, fun c member => ?_, fun c member => ?_, fun t member => ?_⟩
  · rw [staging]
    exact (world.staging directory).mono grows
  · obtain ⟨r, landed, made⟩ := world.curatedFeatures c (features ▸ member)
    exact ⟨r, grows.1.subset landed, made⟩
  · obtain ⟨r, landed, made⟩ := world.curatedLabels c (labels ▸ member)
    exact ⟨r, grows.2.subset landed, made⟩
  · exact (world.trainingRecords t (training ▸ member)).mono grows

theorem Pipeline.sourced_of_reach {clock : ℕ+} {lake : Lake} (reach : Reach pipeline.Step (.initial clock) lake) :
    lake.shared.Sourced ∧ ∀ id, (lake.processes id).Sourced lake.shared := by
  refine Fleet.invariant World.Sourced (fun _ s p => p.Sourced s) reach.guardTrivially ⟨?_, fun _ => ?_⟩ ?_ ?_
  · exact ⟨fun _ => Staging.sourced_empty _, nofun, nofun, nofun⟩
  · exact ⟨nofun, nofun⟩
  · rintro before event after - happened world each
    exact ⟨world.happens happened, fun id => (each id).mono happened.extends⟩
  · rintro before id action after next - taken world each
    obtain ⟨-, landing, -⟩ := taken.landing
    have grows : before.shared.landing.Extends after.landing := landing ▸ Landing.Extends.refl _
    exact ⟨world.step (each id) taken, .step world taken, fun other _ => (each other).mono grows⟩

end Amel
