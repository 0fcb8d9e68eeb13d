import Amel.Pipeline.Gold
import Amel.Pipeline.Provenance

namespace Amel

open Transition (Reach Guarded)

variable {pipeline : Pipeline} {id : String} {s after : World} {p next : DagRun} {action : RunAction}

/-- Committed curated rows and training records stay, unchanged and in place. -/
structure World.Grows (s after : World) : Prop where
  features : s.curatedFeatures <+: after.curatedFeatures
  labels : s.curatedLabels <+: after.curatedLabels
  records : s.trainingRecords <+: after.trainingRecords

theorem World.Grows.refl (s : World) : s.Grows s := ⟨List.prefix_rfl, List.prefix_rfl, List.prefix_rfl⟩

theorem World.Grows.trans {a b c : World} (ab : a.Grows b) (bc : b.Grows c) : a.Grows c :=
  ⟨ab.features.trans bc.features, ab.labels.trans bc.labels, ab.records.trans bc.records⟩

theorem Pipeline.Act.grows (taken : pipeline.Act id s p action after next) : s.Grows after := by
  refine ⟨?_, ?_, ?_⟩
  · rcases taken.curates with ⟨-, same, -⟩ | ⟨bounds, extraction, featuresDf, labelsDf, -, -, -, -, -, rfl⟩
    · exact same ▸ List.prefix_rfl
    · rw [World.commitCurated, updateCuratedFeatures_fst]
      exact KeyedTable.insertIgnore_extends _ _ _
  · rcases taken.curates with ⟨-, -, same, -⟩ | ⟨bounds, extraction, featuresDf, labelsDf, -, -, -, -, -, rfl⟩
    · exact same ▸ List.prefix_rfl
    · rw [World.commitCurated, updateCuratedLabels_fst]
      exact KeyedTable.insertIgnore_extends _ _ _
  · rcases taken.trains with ⟨-, -, same, -⟩ | ⟨df, -, -, rfl, -⟩ | ⟨df, newCount, -, -, -, rfl, -⟩
    · exact same ▸ List.prefix_rfl
    · rw [World.upsertTraining, upsertTrainingRecords_fst]
      exact KeyedTable.insertIgnore_extends _ _ _
    · exact List.prefix_rfl

theorem LakeEvent.Happens.grows {event : LakeEvent} (happened : LakeEvent.Happens s event after) : s.Grows after := by
  obtain ⟨-, features, labels, records⟩ := happened.curated
  exact ⟨features ▸ List.prefix_rfl, labels ▸ List.prefix_rfl, records ▸ List.prefix_rfl⟩

/-- No row that is committed is changed or removed later. -/
theorem Pipeline.grows_of_reach {lake later : Lake} (reach : Reach pipeline.Step lake later) :
    lake.shared.Grows later.shared := by
  refine reach.relates (fun a b => a.shared.Grows b.shared) (fun lake => .refl lake.shared) .trans ?_
  rintro before action after taken
  cases taken with
  | environment happened => exact happened.grows
  | process taken => exact taken.grows

/-- The record joins a curated feature and a curated label of its entity. -/
def World.Makes (s : World) (t : CuratedTrainingRecord) : Prop :=
  ∃ feat ∈ s.curatedFeatures, ∃ label ∈ s.curatedLabels, feat.entityId = t.entityId ∧ label.entityId = t.entityId ∧
    t.featureEventId = feat.eventId ∧ t.labelEventId = label.eventId ∧ t.eventTimestamp = feat.eventTimestamp ∧
    t.features = feat.features ∧ t.target = label.target ∧ t.schemaVersion = feat.schemaVersion

/-- There are a curated feature and a curated label of the entity. -/
def World.Matched (s : World) (entityId : String) : Prop :=
  (∃ feat ∈ s.curatedFeatures, feat.entityId = entityId) ∧ ∃ label ∈ s.curatedLabels, label.entityId = entityId

theorem World.Makes.mono {t : CuratedTrainingRecord} (makes : s.Makes t) (grows : s.Grows after) : after.Makes t := by
  obtain ⟨feat, feature, label, inLabels, made⟩ := makes
  exact ⟨feat, grows.features.subset feature, label, grows.labels.subset inLabels, made⟩

theorem World.Makes.matched {t : CuratedTrainingRecord} (makes : s.Makes t) : s.Matched t.entityId := by
  obtain ⟨feat, feature, label, inLabels, ofFeature, ofLabel, -⟩ := makes
  exact ⟨⟨feat, feature, ofFeature⟩, label, inLabels, ofLabel⟩

theorem makes_of_mem_build {runId : String} {t : CuratedTrainingRecord}
    (member : t ∈ buildTrainingDataset s.curatedFeatures s.curatedLabels s.trainingRecords runId) :
    s.Makes t ∧ t.sourceRunId = runId := by
  obtain ⟨feat, inFeatures, member⟩ := List.mem_flatMap.mp member
  obtain ⟨label, matched, rfl⟩ := List.mem_map.mp member
  obtain ⟨inLabels, same⟩ := List.mem_filter.mp matched
  exact ⟨⟨feat, (List.mem_filter.mp inFeatures).1, label, inLabels, rfl, (of_decide_eq_true same).symm, rfl, rfl, rfl,
    rfl, rfl, rfl⟩, rfl⟩

/-- The join leaves no entity out that has both sides and no record. -/
theorem World.Matched.mem_build {entityId : String} (matched : s.Matched entityId) (runId : String)
    (unrecorded : entityId ∉ s.trainingRecords.map (·.entityId)) :
    ∃ t ∈ buildTrainingDataset s.curatedFeatures s.curatedLabels s.trainingRecords runId, t.entityId = entityId := by
  obtain ⟨⟨feat, feature, ofFeature⟩, label, inLabels, ofLabel⟩ := matched
  refine ⟨_, List.mem_flatMap.mpr ⟨feat, List.mem_filter.mpr ⟨feature, ?_⟩, List.mem_map_of_mem
    (List.mem_filter.mpr ⟨inLabels, ?_⟩)⟩, ofFeature⟩
  · rw [ofFeature]
    exact decide_eq_true unrecorded
  · exact decide_eq_true (ofFeature.trans ofLabel.symm)

/-- At most one record for each entity, each made of curated rows. -/
structure World.Recorded (s : World) : Prop where
  unique : (s.trainingRecords.map (·.entityId)).Nodup
  makes : ∀ t ∈ s.trainingRecords, s.Makes t

/-- What a run is about to upsert is made of curated rows, under its own id. -/
def DagRun.Builds (id : String) (s : World) (p : DagRun) : Prop :=
  ∀ df, p.position = .trainingBuilt df → ∀ t ∈ df, s.Makes t ∧ t.sourceRunId = id

theorem DagRun.Builds.mono (builds : p.Builds id s) (grows : s.Grows after) : p.Builds id after :=
  fun df atPosition t member => ⟨(builds df atPosition t member).1.mono grows, (builds df atPosition t member).2⟩

theorem DagRun.Builds.step (taken : pipeline.Act id s p action after next) : next.Builds id after := by
  intro df atPosition t member
  obtain ⟨makes, source⟩ := makes_of_mem_build ((taken.built atPosition).mem_iff.mp member)
  exact ⟨makes.mono taken.grows, source⟩

/-- A step of a run adds only records of its own. -/
theorem Pipeline.Act.adds (taken : pipeline.Act id s p action after next) (builds : p.Builds id s)
    {t : CuratedTrainingRecord} (member : t ∈ after.trainingRecords) :
    t ∈ s.trainingRecords ∨ s.Makes t ∧ t.sourceRunId = id := by
  rcases taken.trains with ⟨-, -, same, -⟩ | ⟨df, -, atPosition, rfl, -⟩ | ⟨df, newCount, -, -, -, rfl, -⟩
  · exact Or.inl (same ▸ member)
  · rw [World.upsertTraining, upsertTrainingRecords_fst] at member
    exact (KeyedTable.mem_insertIgnore _ member).imp_right (builds df atPosition t)
  · exact Or.inl member

theorem World.Recorded.step (recorded : s.Recorded) (builds : p.Builds id s)
    (taken : pipeline.Act id s p action after next) : after.Recorded where
  unique := by
    rcases taken.trains with ⟨-, -, same, -⟩ | ⟨df, -, -, rfl, -⟩ | ⟨df, newCount, -, -, -, rfl, -⟩
    · exact same ▸ recorded.unique
    · rw [World.upsertTraining, upsertTrainingRecords_fst]
      exact KeyedTable.insertIgnore_keys_nodup _ recorded.unique _
    · exact recorded.unique
  makes t member := by
    rcases taken.adds builds member with old | ⟨makes, -⟩
    · exact (recorded.makes t old).mono taken.grows
    · exact makes.mono taken.grows

theorem Pipeline.recorded_of_reach {clock : ℕ+} {lake : Lake} (reach : Reach pipeline.Step (.initial clock) lake) :
    lake.shared.Recorded ∧ ∀ id, (lake.processes id).Builds id lake.shared := by
  refine Fleet.invariant World.Recorded DagRun.Builds reach.guardTrivially
    ⟨⟨List.nodup_nil, nofun⟩, fun _ => nofun⟩ ?_ ?_
  · intro before event after _ happened recorded each
    obtain ⟨-, -, -, records⟩ := happened.curated
    exact ⟨⟨records ▸ recorded.unique, fun t member => (recorded.makes t (records ▸ member)).mono happened.grows⟩,
      fun id => (each id).mono happened.grows⟩
  · intro before id action after next _ taken recorded each
    exact ⟨recorded.step (each id) taken, .step taken, fun other _ => (each other).mono taken.grows⟩

/-- Steps of other runs, and of no run. -/
def LakeAction.NotOf (id : String) : LakeAction → Prop
  | .inl _ => True
  | .inr (actor, _) => actor ≠ id

/-- While others act, a run stands where it stood, and each record that is
added is one of another run. -/
theorem Pipeline.meanwhile {clock : ℕ+} {lake later : Lake} (reach : Reach pipeline.Step (.initial clock) lake)
    (meanwhile : Reach (Guarded pipeline.Step fun _ action => LakeAction.NotOf id action) lake later) :
    later.processes id = lake.processes id ∧
      ∀ t ∈ later.shared.trainingRecords, t ∈ lake.shared.trainingRecords ∨ t.sourceRunId ≠ id := by
  induction meanwhile with
  | refl => exact ⟨rfl, fun t member => Or.inl member⟩
  | @tail before now path taken ih =>
    obtain ⟨action, taken, others⟩ := taken
    obtain ⟨stands, added⟩ := ih
    have here : Reach pipeline.Step (.initial clock) before := reach.trans (Reach.forget_guard path)
    cases taken with
    | environment happened =>
      obtain ⟨-, -, -, records⟩ := happened.curated
      exact ⟨stands, fun t member => added t (records ▸ member)⟩
    | @process actor action after next taken =>
      have different : id ≠ actor := fun same => others same.symm
      refine ⟨(Function.update_of_ne different ..).trans stands, fun t member => ?_⟩
      rcases taken.adds ((recorded_of_reach here).2 actor) member with old | ⟨-, source⟩
      · exact added t old
      · exact Or.inr fun same => different (same.symm.trans source)

/-- What a run that queried at `queried` and upserted into `after` leaves in
the table. -/
structure World.RecordsOf (id : String) (queried after : World) : Prop where
  complete : ∀ entityId, queried.Matched entityId → ∃! t, t ∈ after.trainingRecords ∧ t.entityId = entityId
  unique : (after.trainingRecords.map (·.entityId)).Nodup
  others : ∀ t ∈ after.trainingRecords, queried.Matched t.entityId ∨ t.sourceRunId ≠ id
  sound : ∀ t ∈ after.trainingRecords, after.Makes t
  kept : queried.trainingRecords <+: after.trainingRecords

/-- The upsert is of what the query returned. -/
theorem Pipeline.built_and_upserted {lake queried upserting upserted : Lake}
    (query : pipeline.Step lake (.inr (id, .buildTraining)) queried)
    (stands : upserting.processes id = queried.processes id)
    (upsert : pipeline.Step upserting (.inr (id, .upsertTraining)) upserted) :
    queried.shared = lake.shared ∧ ∃ df : List CuratedTrainingRecord,
      df.Perm (buildTrainingDataset lake.shared.curatedFeatures lake.shared.curatedLabels
        lake.shared.trainingRecords id) ∧
      upserted.shared.trainingRecords =
        KeyedTable.insertIgnore (·.entityId) upserting.shared.trainingRecords df := by
  cases query with
  | process query =>
    cases query with
    | buildTraining _ returned =>
      cases upsert with
      | process upsert =>
        cases upsert with
        | upsertTraining atPosition =>
          simp only [stands, Function.update_self] at atPosition
          cases atPosition
          exact ⟨rfl, _, returned, upsertTrainingRecords_fst ..⟩

/-- Whatever others do between the query of a run and its upsert: the table
then holds one record for each entity that the query found with both sides or
that another run added, each made of curated rows of its entity, and these
records stay for good. -/
theorem Pipeline.training_records_complete {clock : ℕ+} {lake queried upserting upserted later : Lake}
    (reach : Reach pipeline.Step (.initial clock) lake)
    (query : pipeline.Step lake (.inr (id, .buildTraining)) queried)
    (meanwhile : Reach (Guarded pipeline.Step fun _ action => LakeAction.NotOf id action) queried upserting)
    (upsert : pipeline.Step upserting (.inr (id, .upsertTraining)) upserted)
    (onward : Reach pipeline.Step upserted later) :
    lake.shared.RecordsOf id upserted.shared ∧ upserted.shared.trainingRecords <+: later.shared.trainingRecords := by
  have atQueried := reach.next _ query
  have atUpserting : Reach pipeline.Step (.initial clock) upserting := atQueried.trans meanwhile.forget_guard
  obtain ⟨unique, makes⟩ := (recorded_of_reach (atUpserting.next _ upsert)).1
  have queriedThen : Reach pipeline.Step lake queried := .single ⟨_, query⟩
  have since : Reach pipeline.Step lake upserted := (queriedThen.trans meanwhile.forget_guard).tail ⟨_, upsert⟩
  obtain ⟨stands, added⟩ := Pipeline.meanwhile atQueried meanwhile
  obtain ⟨queriedOnly, df, returned, records⟩ := built_and_upserted query stands upsert
  refine ⟨⟨fun entityId matched => ?_, unique, fun t member => ?_, makes, (grows_of_reach since).records⟩,
    (grows_of_reach onward).records⟩
  · have present : entityId ∈ upserted.shared.trainingRecords.map (·.entityId) := by
      by_cases known : entityId ∈ lake.shared.trainingRecords.map (·.entityId)
      · exact ((grows_of_reach since).records.map _).subset known
      · obtain ⟨t, member, rfl⟩ := matched.mem_build id known
        rw [records]
        exact KeyedTable.key_mem_insertIgnore _ (returned.mem_iff.mpr member)
    obtain ⟨t, member, same⟩ := List.mem_map.mp present
    refine ⟨t, ⟨member, same⟩, fun other ⟨inTable, sameOther⟩ => ?_⟩
    exact List.inj_on_of_nodup_map unique inTable member (sameOther.trans same.symm)
  · rw [records] at member
    rcases KeyedTable.mem_insertIgnore _ member with old | new
    · rcases added t old with before | another
      · rw [queriedOnly] at before
        exact Or.inl ((recorded_of_reach reach).1.makes t before).matched
      · exact Or.inr another
    · exact Or.inl (makes_of_mem_build (returned.mem_iff.mp new)).1.matched

/-- One pair of events: the run records it. -/
theorem Pipeline.one_pair_recorded :
    let pipeline := Pipeline.accepting (fun _ => 25) fun _ => by decide
    ∃ lake upserted, Reach pipeline.Step (.initial 20) lake ∧ Reach pipeline.Step lake upserted ∧
      lake.shared.RecordsOf "first" upserted.shared ∧ upserted.shared.trainingRecords.length = 1 := by
  intro pipeline
  obtain ⟨s, p, record, curated, waiting, -, noRecords, -, build, -⟩ :=
    @one_pair_curated (fun _ _ => True) (fun _ _ => trivial) (fun _ _ _ => trivial) (fun _ => trivial)
  let lake : Lake := ⟨s, Function.update (fun _ => {}) "first" p⟩
  let df := buildTrainingDataset s.curatedFeatures s.curatedLabels s.trainingRecords "first"
  let queried : Lake :=
    ⟨s, Function.update lake.processes "first" { lake.processes "first" with position := .trainingBuilt df }⟩
  have query : pipeline.Step lake (.inr ("first", .buildTraining)) queried :=
    .process (.buildTraining (by simp only [lake, Function.update_self, waiting]) (.refl df))
  have built : (queried.processes "first").position = .trainingBuilt df := by
    simp only [queried, Function.update_self]
  have upsert : pipeline.Step queried (.inr ("first", .upsertTraining)) _ := .process (.upsertTraining built)
  have path : Reach pipeline.Step lake _ := (Relation.ReflTransGen.single ⟨_, query⟩).tail ⟨_, upsert⟩
  obtain ⟨records, -⟩ := training_records_complete curated.forget_guard query .refl upsert .refl
  refine ⟨lake, _, curated.forget_guard, path, records, ?_⟩
  show (upsertTrainingRecords s.trainingRecords df).1.length = 1
  rw [upsertTrainingRecords_fst, show df = [record] by simp only [df, noRecords, build], noRecords]
  rfl

end Amel
