import Mathlib.Data.List.Forall2
import Amel.Pipeline.WatermarkInvariant

namespace Amel

open Transition (Reach Guarded Once)

/-- The 28 names, each once: what the event model admits as features. -/
def Features.Complete (features : Features) : Prop := (features.map Prod.fst).Perm higgsFeatureNames

theorem lookup_map_names (names : List String) (value : String → Float64) (name : String) :
    (names.map fun name => (name, value name)).lookup name = if name ∈ names then some (value name) else none := by
  induction names with
  | nil => rfl
  | cons head rest ih =>
    rw [List.map_cons, List.lookup_cons, ih]
    by_cases same : name = head
    · subst same
      simp only [beq_self_eq_true, List.mem_cons_self, if_true]
    · simp only [beq_false_of_ne same, List.mem_cons, same, false_or]

/-- Columns and back: the mapping is the one it was. -/
theorem higgsColumns_lookup {features : Features} (complete : features.Complete) (name : String) :
    (higgsColumns features).lookup name = features.lookup name := by
  rw [higgsColumns, lookup_map_names]
  have keys : name ∈ higgsFeatureNames ↔ name ∈ features.map Prod.fst := complete.mem_iff.symm
  cases found : features.lookup name with
  | none =>
    rw [if_neg fun known => ?_]
    obtain ⟨entry, member, rfl⟩ := List.mem_map.mp (keys.mp known)
    simpa using List.lookup_eq_none_iff.mp found entry member
  | some value =>
    obtain ⟨before, after, parts, -⟩ := List.lookup_eq_some_iff.mp found
    have known : name ∈ higgsFeatureNames := keys.mpr (List.mem_map.mpr ⟨(name, value), by simp [parts], rfl⟩)
    rw [if_pos known, Option.getD_some]

theorem higgsColumns_names (features : Features) : (higgsColumns features).map Prod.fst = higgsFeatureNames := by
  rw [higgsColumns, List.map_map]
  exact List.map_id _

theorem higgsColumns_complete (features : Features) : (higgsColumns features).Complete := by
  rw [Features.Complete, higgsColumns_names]

/-- The curated row of the run `runId` for a landed feature event. -/
structure HiggsFeatureEvent.CarriedOver (runId : String) (r : HiggsFeatureEvent) (c : CuratedHiggsFeature) : Prop where
  eventId : c.eventId = r.eventId
  entityId : c.entityId = r.entityId
  eventTimestamp : c.eventTimestamp = r.eventTimestamp
  schemaVersion : c.schemaVersion = r.schemaVersion
  names : c.features.map Prod.fst = higgsFeatureNames
  mapping : r.features.Complete → ∀ name, c.features.lookup name = r.features.lookup name
  sourceRunId : c.sourceRunId = runId

/-- And for a landed label event. -/
structure HiggsLabelEvent.CarriedOver (runId : String) (r : HiggsLabelEvent) (c : CuratedHiggsLabel) : Prop where
  eventId : c.eventId = r.eventId
  entityId : c.entityId = r.entityId
  target : c.target = r.target
  labelTimestamp : c.labelTimestamp = r.labelTimestamp
  schemaVersion : c.schemaVersion = r.schemaVersion
  sourceRunId : c.sourceRunId = runId

theorem HiggsFeatureEvent.carriedOver (runId : String) (r : HiggsFeatureEvent) :
    r.CarriedOver runId (r.toRow.curated runId) where
  eventId := rfl
  entityId := rfl
  eventTimestamp := rfl
  schemaVersion := rfl
  names := higgsColumns_names _
  mapping complete name :=
    (higgsColumns_lookup (higgsColumns_complete _) name).trans (higgsColumns_lookup complete name)
  sourceRunId := rfl

theorem HiggsLabelEvent.carriedOver (runId : String) (r : HiggsLabelEvent) :
    r.CarriedOver runId (r.toRow.curated runId) :=
  ⟨rfl, rfl, rfl, rfl, rfl, rfl⟩

/-- `after` is `table` and then a row for each of the chosen ones, in some order. -/
def Adds {Landed Curated : Type} (carried : Landed → Curated → Prop) (chosen : List Landed)
    (table after : List Curated) : Prop :=
  ∃ rows added, rows.Perm chosen ∧ after = table ++ added ∧ List.Forall₂ carried rows added

/-- Through the frames of a run, which keep a part of the window and put it in
another order, and into the table. -/
theorem adds_chosen {Landed Row Curated : Type} [DecidableEq Row] {toRow : Landed → Row} {curate : Row → Curated}
    (landedKey : Landed → String) (rowKey : Row → String) (curatedKey : Curated → String)
    {carried : Landed → Curated → Prop} (each : ∀ r, carried r (curate (toRow r)))
    (keyOfRow : ∀ r, rowKey (toRow r) = landedKey r) (keyOfCurated : ∀ row, curatedKey (curate row) = rowKey row)
    {window : List Landed} {valid silver : List Row} (distinct : (window.map landedKey).Nodup)
    (part : valid.Sublist (window.map toRow)) (sorted : silver.Perm valid) (table : List Curated) :
    Adds carried (window.filter fun r => toRow r ∈ valid ∧ landedKey r ∉ table.map curatedKey) table
      (KeyedTable.insertIgnore curatedKey table (silver.map curate)) := by
  have rowsDistinct : ((window.map toRow).map rowKey).Nodup := by
    rwa [List.map_map, show rowKey ∘ toRow = landedKey from funext keyOfRow]
  have silverKeys : (silver.map rowKey).Nodup :=
    (sorted.map rowKey).nodup_iff.mpr (rowsDistinct.sublist (part.map rowKey))
  have curatedKeys : ((silver.map curate).map curatedKey).Nodup := by
    rwa [List.map_map, show curatedKey ∘ curate = rowKey from funext keyOfCurated]
  have kept : (silver.filter fun row => curatedKey (curate row) ∉ table.map curatedKey).Perm
      ((window.filter fun r => toRow r ∈ valid ∧ landedKey r ∉ table.map curatedKey).map toRow) := by
    refine (List.perm_ext_iff_of_nodup (.filter _ (List.Nodup.of_map _ silverKeys)) ?_).mpr fun row => ?_
    · exact (List.Nodup.of_map _ rowsDistinct).sublist (List.filter_sublist.map toRow)
    · simp only [List.mem_filter, List.mem_map, decide_eq_true_eq, sorted.mem_iff, keyOfCurated]
      constructor
      · rintro ⟨isValid, fresh⟩
        obtain ⟨r, inWindow, rfl⟩ := List.mem_map.mp (part.subset isValid)
        exact ⟨r, ⟨inWindow, isValid, keyOfRow r ▸ fresh⟩, rfl⟩
      · rintro ⟨r, ⟨inWindow, isValid, fresh⟩, rfl⟩
        exact ⟨isValid, (keyOfRow r).symm ▸ fresh⟩
  rw [KeyedTable.insertIgnore_of_distinct curatedKey curatedKeys, List.filter_map]
  have oneByOne (chosen : List Landed) :
      List.Forall₂ (fun c r => carried r c) ((chosen.map toRow).map curate) chosen := by
    rw [List.map_map, List.forall₂_map_left_iff, List.forall₂_same]
    exact fun r _ => each r
  obtain ⟨rows, carriedOver, order⟩ := List.perm_comp_forall₂ (kept.map curate) (oneByOne _)
  exact ⟨rows, _, order, rfl, carriedOver.flip⟩

namespace Pipeline

/-- The run `id` does not fail, and no run of another id has its staging
directory. Whatever else happens meanwhile may happen. -/
def Unfailing (id : String) : Lake → LakeAction → Prop
  | _, .inl _ => True
  | _, .inr (runId, action) =>
    (runId = id → action.Forward) ∧ (runId ≠ id → Keys.safeRunId runId ≠ Keys.safeRunId id)

/-- Nor does it commit to the curated tables. -/
def Uncommitting (id : String) (lake : Lake) (action : LakeAction) : Prop :=
  Unfailing id lake action ∧ action ≠ .inr (id, .commitCurated)

variable (pipeline : Pipeline) (id : String)

/-- Something was so at some time between the two ends of the run. -/
def Observed (origin lake : Lake) (holds : World → Prop) : Prop :=
  Once (Guarded pipeline.Step (Uncommitting id)) origin lake fun moment => holds moment.shared

/-- The bounds of the run: the watermarks that were stored, and its upper bound. -/
structure Determines (origin lake : Lake) (bounds : WatermarkBounds) : Prop where
  featuresWatermark : pipeline.Observed id origin lake fun s => s.watermark .features = bounds.featuresWatermark
  labelsWatermark : pipeline.Observed id origin lake fun s => s.watermark .labels = bounds.labelsWatermark
  upperBound : bounds.upperBound = pipeline.upperBound id

/-- The rows of its window: those between the bounds that had landed. -/
structure Extracts (origin lake : Lake) (bounds : WatermarkBounds) (extraction : Extraction) : Prop where
  features : pipeline.Observed id origin lake fun s =>
    extraction.features = selectFeatures s.landing bounds.featuresWatermark bounds.upperBound
  labels : pipeline.Observed id origin lake fun s =>
    extraction.labels = selectLabels s.landing bounds.labelsWatermark bounds.upperBound

/-- What `validate` returned when the gate let the run pass. -/
def Validates (origin lake : Lake) (extraction : Extraction) (validFeatures : List FeatureRow)
    (validLabels : List LabelRow) : Prop :=
  pipeline.Observed id origin lake fun s =>
    pipeline.GatePasses s (extraction.features.map (·.toRow)) (extraction.labels.map (·.toRow)) ∧
      validFeatures = (pipeline.validateFeatures s.clock (extraction.features.map (·.toRow))).1 ∧
      validLabels = (pipeline.validateLabels s.clock (extraction.labels.map (·.toRow))).1

/-- The commit of the run, from `before` to `after`: its rows go into the
curated tables. -/
structure Commits (origin before after : Lake) (bounds : WatermarkBounds) (extraction : Extraction)
    (validFeatures : List FeatureRow) (validLabels : List LabelRow) : Prop where
  taken : pipeline.Step before (.inr (id, .commitCurated)) after
  determines : pipeline.Determines id origin before bounds
  extracts : pipeline.Extracts id origin before bounds extraction
  validates : pipeline.Validates id origin before extraction validFeatures validLabels
  features : Adds (HiggsFeatureEvent.CarriedOver id)
    (extraction.features.filter fun r =>
      r.toRow ∈ validFeatures ∧ r.eventId ∉ before.shared.curatedFeatures.map (·.eventId))
    before.shared.curatedFeatures after.shared.curatedFeatures
  labels : Adds (HiggsLabelEvent.CarriedOver id)
    (extraction.labels.filter fun r =>
      r.toRow ∈ validLabels ∧ r.eventId ∉ before.shared.curatedLabels.map (·.eventId))
    before.shared.curatedLabels after.shared.curatedLabels

/-- One commit lies behind the run. -/
def CommittedOnce (origin lake : Lake) : Prop :=
  ∃ before after bounds extraction validFeatures validLabels,
    Reach (Guarded pipeline.Step (Uncommitting id)) origin before ∧
    pipeline.Commits id origin before after bounds extraction validFeatures validLabels ∧
    Reach (Guarded pipeline.Step (Uncommitting id)) after lake

/-- The run holds its bounds and its extraction. -/
structure Carries (origin lake : Lake) (p : DagRun) (bounds : WatermarkBounds) (extraction : Extraction) : Prop where
  atBounds : p.bounds = some bounds
  atExtraction : p.extraction = some extraction
  determines : pipeline.Determines id origin lake bounds
  extracts : pipeline.Extracts id origin lake bounds extraction

/-- What is behind the run where it stands, before its commit. -/
def Traced (origin lake : Lake) (s : World) (p : DagRun) : Prop :=
  let files := s.staging (Keys.safeRunId id)
  match p.position with
  | .idle | .waiting .determineHighWatermark => True
  | .featuresWatermarkRead featuresWatermark =>
    pipeline.Observed id origin lake fun s => s.watermark .features = featuresWatermark
  | .waiting .extractNewRecords => ∃ bounds, p.bounds = some bounds ∧ pipeline.Determines id origin lake bounds
  | .featuresExtracted features _ => ∃ bounds, p.bounds = some bounds ∧ pipeline.Determines id origin lake bounds ∧
    pipeline.Observed id origin lake fun s =>
      features = selectFeatures s.landing bounds.featuresWatermark bounds.upperBound
  | .waiting .writeBronze | .bronzeFeaturesPut | .waiting .validate => ∃ bounds extraction,
    pipeline.Carries id origin lake p bounds extraction ∧
    files.rawFeatures = some (extraction.features.map (·.toRow)) ∧
    files.rawLabels = some (extraction.labels.map (·.toRow))
  | .waiting .transform => ∃ bounds extraction, pipeline.Carries id origin lake p bounds extraction ∧
    ∃ validFeatures validLabels, pipeline.Validates id origin lake extraction validFeatures validLabels ∧
      files.validFeatures = some validFeatures ∧ files.validLabels = some validLabels
  | .waiting .writeSilver | .silverFeaturesPut | .waiting .updateCuratedTables => ∃ bounds extraction,
    pipeline.Carries id origin lake p bounds extraction ∧
    ∃ validFeatures validLabels, pipeline.Validates id origin lake extraction validFeatures validLabels ∧
      files.silverFeatures = some (transformFeatures validFeatures) ∧
      files.silverLabels = some (transformLabels validLabels)
  | _ => False

end Pipeline

/-- The curated commit is behind, and the way goes on from it. -/
def Position.AfterCommit : Position → Prop
  | .curatedCommitted _ _ | .waiting .buildTrainingDataset | .trainingBuilt _ | .trainingUpserted _ _
  | .waiting .updateFeatureStore | .posting _ | .waiting .emitPipelineMetadata | .runRecorded => True
  | _ => False

namespace Pipeline

variable {pipeline : Pipeline} {id : String} {s after : World} {p next : DagRun} {action : RunAction}
  {origin lake onward : Lake} {bounds : WatermarkBounds} {extraction : Extraction} {validFeatures : List FeatureRow}
  {validLabels : List LabelRow}

theorem Act.afterCommit (taken : pipeline.Act id s p action after next) (forward : action.Forward)
    (passed : p.position.AfterCommit) : next.position.AfterCommit ∧ action ≠ .commitCurated := by
  cases taken with
  | trigger was | readFeaturesWatermark was | readLabelsWatermark was | extractFeatures was | extractLabels was
  | putBronzeFeatures was | putBronzeLabels was | validatePasses was | validateFails was | transform was
  | putSilverFeatures was | putSilverLabels was | commitCurated was =>
    rw [was] at passed
    cases passed
  | retry | giveUp | clear | finish => cases forward
  | _ => exact ⟨trivial, by rintro ⟨⟩⟩

theorem Observed.later {holds : World → Prop} (observed : pipeline.Observed id origin lake holds)
    (goesOn : Reach (Guarded pipeline.Step (Uncommitting id)) lake onward) :
    pipeline.Observed id origin onward holds :=
  Once.later observed goesOn

theorem Determines.later (determines : pipeline.Determines id origin lake bounds)
    (goesOn : Reach (Guarded pipeline.Step (Uncommitting id)) lake onward) :
    pipeline.Determines id origin onward bounds :=
  ⟨determines.1.later goesOn, determines.2.later goesOn, determines.3⟩

theorem Extracts.later (extracts : pipeline.Extracts id origin lake bounds extraction)
    (goesOn : Reach (Guarded pipeline.Step (Uncommitting id)) lake onward) :
    pipeline.Extracts id origin onward bounds extraction :=
  ⟨extracts.1.later goesOn, extracts.2.later goesOn⟩

theorem Carries.later (carries : pipeline.Carries id origin lake p bounds extraction)
    (goesOn : Reach (Guarded pipeline.Step (Uncommitting id)) lake onward)
    (kept : next.bounds = p.bounds ∧ next.extraction = p.extraction) :
    pipeline.Carries id origin onward next bounds extraction :=
  ⟨kept.1.trans carries.1, kept.2.trans carries.2, carries.3.later goesOn, carries.4.later goesOn⟩

/-- Nothing is forgotten while the run and its directory stay as they are. -/
theorem Traced.later (traced : pipeline.Traced id origin lake s p)
    (goesOn : Reach (Guarded pipeline.Step (Uncommitting id)) lake onward)
    (files : after.staging (Keys.safeRunId id) = s.staging (Keys.safeRunId id)) :
    pipeline.Traced id origin onward after p := by
  unfold Traced at traced ⊢
  rw [files]
  dsimp only at traced ⊢
  split at traced
  · trivial
  · trivial
  · exact Observed.later traced goesOn
  · obtain ⟨bounds, atBounds, determines⟩ := traced
    exact ⟨bounds, atBounds, determines.later goesOn⟩
  · obtain ⟨bounds, atBounds, determines, features⟩ := traced
    exact ⟨bounds, atBounds, determines.later goesOn, features.later goesOn⟩
  all_goals first
    | exact traced
    | obtain ⟨bounds, extraction, carries, features, labels, validates, staged⟩ := traced
      exact ⟨bounds, extraction, carries.later goesOn ⟨rfl, rfl⟩, features, labels, Observed.later validates goesOn,
        staged⟩
    | obtain ⟨bounds, extraction, carries, staged⟩ := traced
      exact ⟨bounds, extraction, carries.later goesOn ⟨rfl, rfl⟩, staged⟩

/-- The run's own steps up to its commit. -/
theorem Traced.step (traced : pipeline.Traced id origin lake s p) (taken : pipeline.Act id s p action after next)
    (forward : action.Forward) (uncommitted : action ≠ .commitCurated)
    (goesOn : Reach (Guarded pipeline.Step (Uncommitting id)) lake onward)
    (here : ∀ {holds : World → Prop}, holds s → pipeline.Observed id origin onward holds) :
    pipeline.Traced id origin onward after next := by
  unfold Traced at traced ⊢
  cases taken with
  | trigger was => trivial
  | readFeaturesWatermark was => exact here rfl
  | readLabelsWatermark was =>
    simp only [was] at traced
    exact ⟨_, rfl, Observed.later traced goesOn, here rfl, rfl⟩
  | extractFeatures was atBounds =>
    simp only [was] at traced
    obtain ⟨bounds, holds, determines⟩ := traced
    cases atBounds.symm.trans holds
    exact ⟨_, holds, determines.later goesOn, here rfl⟩
  | extractLabels was atBounds =>
    simp only [was] at traced
    obtain ⟨bounds, holds, determines, features⟩ := traced
    cases atBounds.symm.trans holds
    refine ⟨_, _, ⟨holds, rfl, determines.later goesOn, features.later goesOn, here rfl⟩, ?_⟩
    simp only [World.stage, Function.update_self, and_self]
  | putBronzeFeatures was | putBronzeLabels was =>
    simp only [was] at traced
    obtain ⟨bounds, extraction, carries, staged⟩ := traced
    exact ⟨bounds, extraction, carries.later goesOn ⟨rfl, rfl⟩, staged⟩
  | validatePasses was rawFeatures rawLabels gate =>
    simp only [was] at traced
    obtain ⟨bounds, extraction, carries, features, labels⟩ := traced
    cases rawFeatures.symm.trans features
    cases rawLabels.symm.trans labels
    refine ⟨bounds, extraction, carries.later goesOn ⟨rfl, rfl⟩, _, _, here ⟨gate, rfl, rfl⟩, ?_⟩
    simp only [writeValidated, World.putReport, World.stage, Function.update_self, and_self]
  | validateFails was rawFeatures rawLabels =>
    simp only [was] at traced ⊢
    obtain ⟨bounds, extraction, carries, staged⟩ := traced
    refine ⟨bounds, extraction, carries.later goesOn ⟨rfl, rfl⟩, ?_⟩
    simpa only [writeValidated, World.putReport, World.stage, Function.update_self] using staged
  | transform was validFeatures validLabels =>
    simp only [was] at traced
    obtain ⟨bounds, extraction, carries, features, labels, validates, staged⟩ := traced
    cases validFeatures.symm.trans staged.1
    cases validLabels.symm.trans staged.2
    refine ⟨bounds, extraction, carries.later goesOn ⟨rfl, rfl⟩, _, _, Observed.later validates goesOn, ?_⟩
    simp only [World.stage, Function.update_self, and_self]
  | putSilverFeatures was | putSilverLabels was =>
    simp only [was] at traced
    obtain ⟨bounds, extraction, carries, features, labels, validates, staged⟩ := traced
    exact ⟨bounds, extraction, carries.later goesOn ⟨rfl, rfl⟩, features, labels, Observed.later validates goesOn,
      staged⟩
  | commitCurated => exact absurd rfl uncommitted
  | finishCurated was | buildTraining was | upsertTraining was | putGold was | skipGold was | readWindows was
  | postWindow was | finishFeatureStore was | recordSuccess was =>
    simp only [was] at traced
  | retry | giveUp | clear | finish => cases forward

theorem Act.staging_other (taken : pipeline.Act id s p action after next) {other : String}
    (apart : Keys.safeRunId other ≠ Keys.safeRunId id) :
    after.staging (Keys.safeRunId other) = s.staging (Keys.safeRunId other) := by
  cases taken with
  | extractLabels | validatePasses | validateFails | transform | finish =>
    simp only [writeValidated, World.putReport, World.stage, Function.update_of_ne apart]
  | giveUp => split <;> rfl
  | _ => rfl

/-- The primary keys of the landing tables hold throughout. -/
theorem landing_keyed {allowed : Lake → LakeAction → Prop} (reach : Reach (Guarded pipeline.Step allowed) origin lake)
    (keyed : origin.shared.landing.Keyed) : lake.shared.landing.Keyed := by
  refine reach.invariant (fun lake => lake.shared.landing.Keyed) keyed fun before action after _ holds step => ?_
  cases step.1 with
  | environment happened =>
    cases happened with
    | commitLanding => exact holds.insert _ _
    | _ => exact holds
  | process taken => exact taken.landing.2.1 ▸ holds

theorem Extracts.distinct (extracts : pipeline.Extracts id origin lake bounds extraction)
    (keyed : origin.shared.landing.Keyed) :
    (extraction.features.map (·.eventId)).Nodup ∧ (extraction.labels.map (·.eventId)).Nodup := by
  constructor
  · obtain ⟨moment, reach, -, selected⟩ := extracts.features
    rw [selected, selectFeatures, ((List.perm_insertionSort _ _).map _).nodup_iff]
    exact (landing_keyed reach keyed).1.sublist (List.filter_sublist.map _)
  · obtain ⟨moment, reach, -, selected⟩ := extracts.labels
    rw [selected, selectLabels, ((List.perm_insertionSort _ _).map _).nodup_iff]
    exact (landing_keyed reach keyed).2.sublist (List.filter_sublist.map _)

/-- The commit of a run that has got there. -/
theorem Traced.commits (traced : pipeline.Traced id origin lake lake.shared (lake.processes id))
    (keyed : origin.shared.landing.Keyed) (taken : pipeline.Step lake (.inr (id, .commitCurated)) onward) :
    ∃ bounds extraction validFeatures validLabels,
      pipeline.Commits id origin lake onward bounds extraction validFeatures validLabels := by
  have stepped := taken
  cases taken with
  | process taken =>
    cases taken with
    | commitCurated was atBounds atExtraction silverFeatures silverLabels =>
      unfold Traced at traced
      simp only [was] at traced
      obtain ⟨bounds, extraction, carries, features, labels, validates, staged⟩ := traced
      cases atBounds.symm.trans carries.atBounds
      cases atExtraction.symm.trans carries.atExtraction
      cases silverFeatures.symm.trans staged.1
      cases silverLabels.symm.trans staged.2
      obtain ⟨distinctFeatures, distinctLabels⟩ := carries.extracts.distinct keyed
      have validated := validates
      obtain ⟨_, -, -, -, validFeatures, validLabels⟩ := validated
      refine ⟨_, _, features, labels, stepped, carries.determines, carries.extracts, validates, ?_, ?_⟩
      · dsimp only [World.commitCurated]
        rw [updateCuratedFeatures_fst]
        exact adds_chosen HiggsFeatureEvent.eventId FeatureRow.eventId CuratedHiggsFeature.eventId
          (HiggsFeatureEvent.carriedOver id) (fun _ => rfl) (fun _ => rfl) distinctFeatures
          (validFeatures ▸ validate_sublist _ _) (List.perm_insertionSort _ _) _
      · dsimp only [World.commitCurated]
        rw [updateCuratedLabels_fst]
        exact adds_chosen HiggsLabelEvent.eventId LabelRow.eventId CuratedHiggsLabel.eventId
          (HiggsLabelEvent.carriedOver id) (fun _ => rfl) (fun _ => rfl) distinctLabels
          (validLabels ▸ validate_sublist _ _) (List.perm_insertionSort _ _) _

/-- Where a run stands that does not fail: short of its commit, with what it
has observed, or past it. -/
def Underway (pipeline : Pipeline) (id : String) (origin lake : Lake) : Prop :=
  (Reach (Guarded pipeline.Step (Uncommitting id)) origin lake ∧
    pipeline.Traced id origin lake lake.shared (lake.processes id)) ∨
  (pipeline.CommittedOnce id origin lake ∧ (lake.processes id).position.AfterCommit)

theorem Underway.commit (underway : pipeline.Underway id origin lake) (keyed : origin.shared.landing.Keyed)
    (step : pipeline.Step lake (.inr (id, .commitCurated)) onward) : pipeline.Underway id origin onward := by
  rcases underway with ⟨reach, traced⟩ | ⟨-, passed⟩
  · obtain ⟨bounds, extraction, validFeatures, validLabels, commits⟩ := traced.commits keyed step
    refine Or.inr ⟨⟨lake, onward, bounds, extraction, validFeatures, validLabels, reach, commits, .refl⟩, ?_⟩
    cases step with
    | process taken =>
      cases taken
      simp only [Function.update_self, Position.AfterCommit]
  · cases step with
    | process taken => exact absurd rfl (taken.afterCommit trivial passed).2

/-- Any other step. -/
theorem Underway.goOn (underway : pipeline.Underway id origin lake) {action : LakeAction}
    (step : pipeline.Step lake action onward) (uncommitting : Uncommitting id lake action) :
    pipeline.Underway id origin onward := by
  have goesOn : Reach (Guarded pipeline.Step (Uncommitting id)) lake onward :=
    Reach.next .refl action ⟨step, uncommitting⟩
  obtain ⟨unfailing, uncommitted⟩ := uncommitting
  rcases underway with ⟨reach, traced⟩ | ⟨committed, passed⟩
  · refine Or.inl ⟨reach.trans goesOn, ?_⟩
    cases step with
    | environment happened => exact traced.later goesOn (by cases happened <;> rfl)
    | @process runId _ _ _ taken =>
      by_cases own : runId = id
      · subst own
        simp only [Function.update_self]
        exact traced.step taken (unfailing.1 rfl) (by rintro rfl; exact uncommitted rfl) goesOn
          fun holds => ⟨lake, reach, goesOn, holds⟩
      · simp only [Function.update_of_ne (Ne.symm own)]
        exact traced.later goesOn (taken.staging_other (unfailing.2 own).symm)
  · obtain ⟨before, after, bounds, extraction, validFeatures, validLabels, reach, commits, since⟩ := committed
    refine Or.inr ⟨⟨before, after, bounds, extraction, validFeatures, validLabels, reach, commits,
      since.trans goesOn⟩, ?_⟩
    cases step with
    | environment happened => exact passed
    | @process runId _ _ _ taken =>
      by_cases own : runId = id
      · subst own
        simp only [Function.update_self]
        exact (taken.afterCommit (unfailing.1 rfl) passed).1
      · simpa only [Function.update_of_ne (Ne.symm own)] using passed

/-- The other tasks of the run leave the curated tables alone. -/
def KeepsCurated (pipeline : Pipeline) (id : String) : Prop :=
  ∀ before action after, action ≠ .commitCurated → pipeline.Step before (.inr (id, action)) after →
    after.shared.curatedFeatures = before.shared.curatedFeatures ∧
      after.shared.curatedLabels = before.shared.curatedLabels

theorem keepsCurated (pipeline : Pipeline) (id : String) : pipeline.KeepsCurated id := by
  intro before action after other step
  cases step with
  | process taken =>
    rcases taken.curates with ⟨-, features, labels, -⟩ | ⟨_, _, _, _, commits, -⟩
    · exact ⟨features, labels⟩
    · exact absurd commits other

/-- A run that has recorded its success without a failure has put into the
curated tables, in one commit, exactly the rows of its window that were valid
and not curated yet, each as it landed. -/
theorem run_faithful (keyed : origin.shared.landing.Keyed)
    (starts : (origin.processes id).position = .idle ∨
      (origin.processes id).position = .waiting .determineHighWatermark)
    (reach : Reach (Guarded pipeline.Step (Unfailing id)) origin lake)
    (recorded : (lake.processes id).position = .runRecorded) :
    pipeline.CommittedOnce id origin lake ∧ pipeline.KeepsCurated id := by
  have start : pipeline.Underway id origin origin := by
    refine Or.inl ⟨.refl, ?_⟩
    unfold Traced
    rcases starts with idle | waiting
    · simp only [idle]
    · simp only [waiting]
  have underway := reach.invariant (pipeline.Underway id origin) start fun before action after _ holds step => by
    by_cases commits : action = .inr (id, .commitCurated)
    · exact holds.commit keyed (commits ▸ step.1)
    · exact holds.goOn step.1 ⟨step.2, commits⟩
  rcases underway with ⟨-, traced⟩ | ⟨committed, -⟩
  · unfold Traced at traced
    simp only [recorded] at traced
  · exact ⟨committed, pipeline.keepsCurated id⟩

/-- One row, which the first run finds and the schemas accept. -/
theorem one_row_carried_over :
    let pipeline := Pipeline.accepting (fun _ => 25) fun _ => by decide
    ∃ origin lake, Reach (Guarded pipeline.Step (Unfailing "first")) origin lake ∧
      pipeline.CommittedOnce "first" origin lake ∧ lake.shared.curatedFeatures.map (·.eventId) = ["feature"] := by
  intro pipeline
  let row := HiggsFeatureEvent.of "feature" "higgs-000000000" 10
  let landing : Landing := { features := [{ row with ingestedAt := 20 }] }
  let origin : Lake := ⟨{ clock := 30, landing }, Function.update (fun _ => {}) "first" {}⟩
  have start : Reach (Guarded pipeline.Step (Unfailing "first")) origin origin := .refl
  obtain ⟨after, next, reach, completed, -, recorded, -⟩ := reach_completed start rfl (by decide : (25 : Int) ≤ 30)
    (gatePasses_accepting _ _ _ _ _) fun _ _ forward => ⟨fun _ => forward, fun other => absurd rfl other⟩
  have keyed : origin.shared.landing.Keyed := ⟨by decide, by decide⟩
  have faithful := run_faithful keyed (Or.inl rfl) reach (by simp only [Function.update_self, recorded])
  refine ⟨origin, _, reach, faithful.1, ?_⟩
  have curated : after.curatedFeatures = [row.toRow.curated "first"] := by
    rw [completed.curatedFeatures]
    decide
  simp only [curated]
  rfl

end Pipeline

end Amel
