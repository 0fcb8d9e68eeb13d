import Amel.Simulator.Platform

namespace Amel

open Python (Text text)
open Python.Json (Value JsonFloat)
open Transition (Reach Guarded)

variable {dataset : List HiggsRow} {pydantic : Pydantic} {pipeline : Pipeline} {clock : ℕ+} {p : Platform}

/-- The record joins a feature event and a label event of one row of the
dataset. -/
def Platform.Paired (p : Platform) (t : CuratedTrainingRecord) : Prop :=
  ∃ f ∈ p.lake.shared.landing.features, ∃ l ∈ p.lake.shared.landing.labels,
    t.featureEventId = f.eventId ∧ t.labelEventId = l.eventId ∧
      ∃ feature label, (p.source.log .features f.kafkaPartition)[f.kafkaOffset]? = some feature ∧
        (p.source.log .labels l.kafkaPartition)[l.kafkaOffset]? = some label ∧ feature.datasetRow = label.datasetRow

/-- In every run in which each start of the simulator finds its indices
clear, every training record joins two events of one row of the dataset. -/
theorem Platform.pairs (declared : pydantic.Declared)
    (reach : Reach (Guarded (Platform.Step dataset pydantic pipeline) (Platform.Clear dataset)) (.initial clock) p)
    (t : CuratedTrainingRecord) (member : t ∈ p.lake.shared.trainingRecords) : p.Paired t := by
  obtain ⟨aligned, supplied⟩ := aligned_of_reach reach
  obtain ⟨sourced, -⟩ := Pipeline.sourced_of_reach (lake_reach reach)
  obtain ⟨f, landedFeature, l, landedLabel, entity, -, featureId, labelId, -⟩ := sourced.trainingRecords t member
  obtain ⟨feature, carriesFeature⟩ := supplied.landed .features f landedFeature
  obtain ⟨label, carriesLabel⟩ := supplied.landed .labels l landedLabel
  obtain ⟨validFeature, ofFeature⟩ := carriesFeature.entityId declared
  obtain ⟨validLabel, ofLabel⟩ := carriesLabel.entityId declared
  have same : feature.index = label.index := higgsEntityId_injective (ofFeature.symm.trans (entity.trans ofLabel))
  have oneRow := aligned.agree feature label carriesFeature.holds carriesLabel.holds validFeature validLabel same
  exact ⟨f, landedFeature, l, landedLabel, featureId, labelId, feature, label, carriesFeature.found,
    carriesLabel.found, oneRow⟩

/-- A `str` field of a payload. -/
def readStr (payload : Payload) (key : String) : Option Text :=
  match payload.lookup (text key) with
  | some (.str t) => some t
  | _ => none

def oneInstant : Text := text "2026-01-01T00:00:00Z"

/-- A `datetime` field that holds the one instant known here. -/
def readInstant (payload : Payload) (key : String) : Option Datetime :=
  match payload.lookup (text key) with
  | some (.str t) => if t = oneInstant then some ⟨1767225600000000, some 0⟩ else none
  | _ => none

/-- The two floats of the rows below. -/
def readFloat : Value → Option Float64
  | .float (.literal digits) =>
    if digits = text "0.5" then some 0x3FE0000000000000
    else if digits = text "1.5" then some 0x3FF8000000000000 else none
  | _ => none

def readFeatures (payload : Payload) : Option Features :=
  match payload.lookup (text "features") with
  | some (.dict items) =>
    if items.map Prod.fst = higgsFeatureNames.map text then
      (items.mapM fun item => readFloat item.2).map higgsFeatureNames.zip
    else none
  | _ => none

def readTarget (payload : Payload) : Option Int :=
  match payload.lookup (text "target") with
  | some (.int target) => if 0 ≤ target ∧ target ≤ 1 then some target else none
  | _ => none

def readFeatureEvent (payload : Payload) : Option FeatureEvent :=
  if payload.map Prod.fst = featureEventFields then
    return {
      eventId := ← readStr payload "event_id", entityId := ← readStr payload "entity_id"
      eventTimestamp := ← readInstant payload "event_timestamp"
      schemaVersion := ← readStr payload "schema_version", source := ← readStr payload "source"
      features := ← readFeatures payload, traceId := ← readStr payload "trace_id" }
  else none

def readLabelEvent (payload : Payload) : Option LabelEvent :=
  if payload.map Prod.fst = labelEventFields then
    return {
      eventId := ← readStr payload "event_id", entityId := ← readStr payload "entity_id"
      target := ← readTarget payload, labelTimestamp := ← readInstant payload "label_timestamp"
      schemaVersion := ← readStr payload "schema_version" }
  else none

/-- `model_validate` of events of that instant and those floats; others are
refused here. -/
def oneInstantPydantic : Pydantic where
  featureEvent
    | .dict payload => (readFeatureEvent payload).elim (.error 1) .ok
    | _ => .error 1
  labelEvent
    | .dict payload => (readLabelEvent payload).elim (.error 1) .ok
    | _ => .error 1

theorem lookup_of_readStr {payload : Payload} {key : String} {s : Text} (read : readStr payload key = some s) :
    payload.lookup (text key) = some (.str s) := by
  unfold readStr at read
  split at read
  · rename_i t found
    cases read
    exact found
  · cases read

theorem oneInstantPydantic_declared : oneInstantPydantic.Declared where
  feature payload event validates := by
    cases read : readFeatureEvent payload with
    | none => simp [oneInstantPydantic, read] at validates
    | some found =>
      obtain rfl : found = event := by simpa [oneInstantPydantic, read] using validates
      unfold readFeatureEvent at read
      split at read
      · rename_i fields
        simp only [Option.bind_eq_bind, Option.bind_eq_some_iff, Option.pure_def, Option.some.injEq] at read
        obtain ⟨_, -, entityId, entity, _, -, _, -, _, -, _, -, _, -, rfl⟩ := read
        exact ⟨fun key member => fields ▸ member, lookup_of_readStr entity⟩
      · cases read
  label payload event validates := by
    cases read : readLabelEvent payload with
    | none => simp [oneInstantPydantic, read] at validates
    | some found =>
      obtain rfl : found = event := by simpa [oneInstantPydantic, read] using validates
      unfold readLabelEvent at read
      split at read
      · rename_i fields
        simp only [Option.bind_eq_bind, Option.bind_eq_some_iff, Option.pure_def, Option.some.injEq] at read
        obtain ⟨_, -, entityId, entity, _, -, _, -, _, -, rfl⟩ := read
        exact ⟨fun key member => fields ▸ member, lookup_of_readStr entity⟩
      · cases read

def signal : HiggsRow := ⟨1, higgsFeatureNames.map (·, .literal (text "0.5"))⟩

def background : HiggsRow := ⟨0, higgsFeatureNames.map (·, .literal (text "1.5"))⟩

def drawFeature (corruption : Option FeatureStrategy) : FeatureDraw :=
  ⟨oneInstant, text "00000000000000000000000000000001", corruption, false⟩

def drawLabel : LabelDraw := ⟨oneInstant, none, false⟩

def validFeature (index : Nat) (value : Float64) : FeatureEvent where
  eventId := text ("feat-" ++ higgsEntityId index)
  entityId := text (higgsEntityId index)
  eventTimestamp := ⟨1767225600000000, some 0⟩
  features := higgsFeatureNames.map (·, value)
  traceId := text "00000000000000000000000000000001"

def validLabel (index : Nat) (target : Int) : LabelEvent where
  eventId := text ("label-" ++ higgsEntityId index)
  entityId := text (higgsEntityId index)
  target
  labelTimestamp := ⟨1767225600000000, some 0⟩

def higgsRows : List HiggsRow := [signal, background]

/-- Index 1 of a run that starts there. -/
def feature1 : Record := .feature 1 0 signal (drawFeature none)

def label1 : Record := .label 1 0 signal drawLabel

/-- Index 2 of that run, its feature event corrupted. -/
def corrupted2 : Record := .feature 2 1 background (drawFeature (some .wrongType))

def label2 : Record := .label 2 1 background drawLabel

/-- Index 2 of a run that starts there. -/
def restarted2 : Record := .feature 2 0 signal (drawFeature none)

def restartedLabel2 : Record := .label 2 0 signal drawLabel

theorem feature1_reads : oneInstantPydantic.featureEvent (.dict feature1.payload) =
    .ok (validFeature 1 0x3FE0000000000000) := by
  decide +kernel

theorem label1_reads : oneInstantPydantic.labelEvent (.dict label1.payload) = .ok (validLabel 1 1) := by
  decide +kernel

theorem label2_reads : oneInstantPydantic.labelEvent (.dict label2.payload) = .ok (validLabel 2 0) := by
  decide +kernel

theorem restarted2_reads : oneInstantPydantic.featureEvent (.dict restarted2.payload) =
    .ok (validFeature 2 0x3FE0000000000000) := by
  decide +kernel

/-- The first run up to its first row, from empty tables. -/
theorem Platform.first_published {allowed : Platform → PlatformAction → Prop}
    (starts : ∀ lake computed maxRows, allowed ⟨lake, { computed }⟩ (.source (.start maxRows)))
    (others : ∀ p action, (∀ maxRows, action ≠ .source (.start maxRows)) → allowed p action) :
    Reach (Guarded (Platform.Step higgsRows oneInstantPydantic pipeline) allowed) (.initial 20)
      ⟨.initial 20,
        { runner := some ⟨1, higgsRows, 1⟩, inFlight := [(.features, feature1), (.labels, label1)] }⟩ := by
  have one : higgsStartIndex {} = some 1 := higgsStartIndex_of_max (by decide +kernel)
  have initial : Reach (Guarded (Platform.Step higgsRows oneInstantPydantic pipeline) allowed) (.initial 20)
    ⟨.initial 20, {}⟩ := .refl
  have computed := Platform.reach_source initial (.computeStartIndex one) (others _ _ nofun)
  have started := Platform.reach_source computed (@Source.Step.start higgsRows _ _ 1 2 rfl rfl) (starts _ _ _)
  exact Platform.reach_source started (@Source.Step.publish higgsRows _ _ ⟨1, higgsRows, 0⟩ signal (drawFeature none)
    drawLabel rfl rfl) (others _ _ nofun)

def featureRow (index offset : Nat) : HiggsFeatureEvent :=
  Row.toFeature ⟨validFeature index 0x3FE0000000000000, 0, offset⟩ 20

def labelRow (index offset : Nat) (target : Int) : HiggsLabelEvent :=
  Row.toLabel ⟨validLabel index target, 0, offset⟩ 20

/-- One run from a lake in which rows have landed and nothing else. -/
theorem Pipeline.first_completed (landing : Landing) :
    let pipeline := Pipeline.accepting (fun _ => 25) fun _ => by decide
    let start : World := { clock := 30, landing }
    ∃ after next, Reach (Guarded pipeline.Step LandsNothing) ⟨{ clock := 20, landing }, fun _ => {}⟩
        ⟨after, Function.update (fun _ => {}) "first" next⟩ ∧ Completed pipeline "first" start after := by
  intro pipeline start
  have ticked : Reach (Guarded pipeline.Step LandsNothing) ⟨{ clock := 20, landing }, fun _ => {}⟩
      ⟨start, Function.update (fun _ => {}) "first" {}⟩ := by
    rw [Function.update_eq_self_iff.mpr rfl]
    exact Reach.next .refl (.inl (.tick 10)) ⟨.environment .tick, nofun⟩
  obtain ⟨after, next, reach, completed, -⟩ := reach_succeeded ticked rfl (by decide : (25 : Int) ≤ 30)
    (gatePasses_accepting _ _ _ _ _) fun _ _ _ _ => nofun
  exact ⟨after, next, reach, completed⟩

/-- Both events of index 1 in Kafka. -/
def delivered : Source :=
  (({ runner := some ⟨1, higgsRows, 1⟩ } : Source).append .features 0 feature1).append .labels 0 label1

theorem delivered_supplies : delivered.Supplies oneInstantPydantic [featureRow 1 0] [labelRow 1 0 1] := by
  refine ⟨fun row member => ?_, fun row member => ?_⟩
  · cases List.mem_singleton.mp member
    exact ⟨feature1, rfl, _, feature1_reads, rfl⟩
  · cases List.mem_singleton.mp member
    exact ⟨label1, rfl, _, label1_reads, rfl⟩

/-- One run of the simulator and one of the pipeline: its event becomes a
training record. -/
theorem Platform.one_event_paired :
    let pipeline := Pipeline.accepting (fun _ => 25) fun _ => by decide
    ∃ p, Reach (Guarded (Platform.Step higgsRows oneInstantPydantic pipeline) (Platform.Clear higgsRows))
        (.initial 20) p ∧
      p.lake.shared.trainingRecords.length = 1 ∧ ∀ t ∈ p.lake.shared.trainingRecords, p.Paired t := by
  intro pipeline
  have others (p : Platform) (action : PlatformAction) (notStart : ∀ maxRows, action ≠ .source (.start maxRows)) :
      Platform.Clear higgsRows p action := by
    cases action with
    | lake => trivial
    | source action => cases action <;> first | trivial | exact absurd rfl (notStart _)
  have published := @Platform.first_published pipeline (Platform.Clear higgsRows) (fun lake computed maxRows => by
    rintro startIndex - record (⟨_, sent⟩ | ⟨_, _, inLog⟩)
    · cases sent
    · cases inLog) others
  have sent := Platform.reach_source published (@Source.Step.arrive _ _ _ [] .features feature1 _ 0 rfl)
    (others _ _ nofun)
  have arrived := Platform.reach_source sent (@Source.Step.arrive _ _ _ [] .labels label1 _ 0 rfl)
    (others _ _ nofun)
  have landed := Platform.reach_landing arrived delivered_supplies fun _ _ => trivial
  obtain ⟨after, next, run, completed⟩ := Pipeline.first_completed ⟨[featureRow 1 0], [labelRow 1 0 1]⟩
  have reach := Platform.reach_lake landed run fun _ _ => trivial
  let start : World := { clock := 30, landing := ⟨[featureRow 1 0], [labelRow 1 0 1]⟩ }
  have silver : pipeline.silverFeatures "first" start = [(featureRow 1 0).toRow] ∧
      pipeline.silverLabels "first" start = [(labelRow 1 0 1).toRow] := by decide +kernel
  have records : after.trainingRecords.length = 1 := by
    rw [completed.trainingRecords, completed.curatedFeatures, completed.curatedLabels, upsertTrainingRecords_fst,
      updateCuratedFeatures_fst, updateCuratedLabels_fst, silver.1, silver.2]
    decide +kernel
  exact ⟨_, reach, records, Platform.pairs oneInstantPydantic_declared reach⟩

/-- The first run after its second row: of index 2 only the label event is
valid, and it is in Kafka. -/
def stalled : Source :=
  (({ runner := some ⟨1, higgsRows, 2⟩, inFlight := [(.labels, label1), (.features, corrupted2)] } : Source).append
    .features 0 feature1).append .labels 0 label2

/-- The second run, which starts at index 2, after its first row. -/
def renumbered : Source :=
  { stalled with
    runner := some ⟨2, higgsRows, 1⟩
    inFlight := [(.labels, label1), (.features, corrupted2), (.labels, restartedLabel2)] }.append .features 0 restarted2

theorem stalled_supplies : stalled.Supplies oneInstantPydantic [featureRow 1 0] [labelRow 2 0 0] := by
  refine ⟨fun row member => ?_, fun row member => ?_⟩
  · cases List.mem_singleton.mp member
    exact ⟨feature1, rfl, _, feature1_reads, rfl⟩
  · cases List.mem_singleton.mp member
    exact ⟨label2, rfl, _, label2_reads, rfl⟩

theorem renumbered_supplies : renumbered.Supplies oneInstantPydantic [featureRow 2 1] [] := by
  refine ⟨fun row member => ?_, nofun⟩
  cases List.mem_singleton.mp member
  exact ⟨restarted2, rfl, _, restarted2_reads, rfl⟩

/-- The feature event of index 2 was corrupted and its label event was not,
so the next run starts at 2 and its feature event meets the old label. -/
theorem Platform.renumbered_event_mispaired :
    ¬∀ (dataset : List HiggsRow) (pydantic : Pydantic) (pipeline : Pipeline) (clock : ℕ+) (p : Platform),
      pydantic.Declared → Reach (Platform.Step dataset pydantic pipeline) (.initial clock) p →
      ∀ t ∈ p.lake.shared.trainingRecords, p.Paired t := by
  intro paired
  let pipeline := Pipeline.accepting (fun _ => 25) fun _ => by decide
  have published := @Platform.first_published pipeline (fun _ _ => True) (fun _ _ _ => trivial) fun _ _ _ => trivial
  have second := Platform.reach_source published (@Source.Step.publish higgsRows _ _ ⟨1, higgsRows, 1⟩ background
    (drawFeature (some .wrongType)) drawLabel rfl rfl) trivial
  have feature := Platform.reach_source second (@Source.Step.arrive _ _ _ [] .features feature1 _ 0 rfl) trivial
  have label := Platform.reach_source feature
    (@Source.Step.arrive _ _ _ [(.labels, label1), (.features, corrupted2)] .labels label2 [] 0 rfl) trivial
  have landed := Platform.reach_landing label stalled_supplies fun _ _ => trivial
  have stopped := Platform.reach_source landed .stop trivial
  have two : higgsStartIndex ⟨[featureRow 1 0], [labelRow 2 0 0]⟩ = some 2 := higgsStartIndex_of_max rfl
  have computed := Platform.reach_source stopped (.computeStartIndex two) trivial
  have started := Platform.reach_source computed (@Source.Step.start higgsRows _ _ 2 2 rfl rfl) trivial
  have restarted := Platform.reach_source started
    (@Source.Step.publish higgsRows _ _ ⟨2, higgsRows, 0⟩ signal (drawFeature none) drawLabel rfl rfl) trivial
  have arrived := Platform.reach_source restarted
    (@Source.Step.arrive _ _ _ [(.labels, label1), (.features, corrupted2)] .features restarted2
      [(.labels, restartedLabel2)] 0 rfl) trivial
  have again := Platform.reach_landing arrived renumbered_supplies fun _ _ => trivial
  let start : World := { clock := 30, landing := ⟨[featureRow 1 0, featureRow 2 1], [labelRow 2 0 0]⟩ }
  have table : Landing.insert ⟨[featureRow 1 0], [labelRow 2 0 0]⟩ [featureRow 2 1] [] = start.landing := by
    decide +kernel
  obtain ⟨after, next, run, completed⟩ := Pipeline.first_completed start.landing
  rw [← table] at run
  have reach := Platform.reach_lake again run fun _ _ => trivial
  have silver : pipeline.silverFeatures "first" start = [(featureRow 1 0).toRow, (featureRow 2 1).toRow] ∧
      pipeline.silverLabels "first" start = [(labelRow 2 0 0).toRow] := by decide +kernel
  have records : after.trainingRecords.map (fun t => (t.featureEventId, t.labelEventId)) =
      [((featureRow 2 1).eventId, (labelRow 2 0 0).eventId)] := by
    rw [completed.trainingRecords, completed.curatedFeatures, completed.curatedLabels, upsertTrainingRecords_fst,
      updateCuratedFeatures_fst, updateCuratedLabels_fst, silver.1, silver.2]
    decide +kernel
  obtain ⟨t, member, ids⟩ := List.mem_map.mp (records ▸ List.mem_singleton.mpr rfl)
  obtain ⟨f, landedFeature, l, landedLabel, featureId, labelId, feature, label, atFeature, atLabel, same⟩ :=
    paired higgsRows oneInstantPydantic pipeline 20 _ oneInstantPydantic_declared reach.forget_guard t member
  rw [completed.landing] at landedFeature landedLabel
  obtain rfl : l = labelRow 2 0 0 := List.mem_singleton.mp landedLabel
  obtain ⟨featureEvent, -⟩ := Prod.mk.inj ids
  rcases List.mem_cons.mp landedFeature with rfl | second
  · exact absurd (featureEvent.symm.trans featureId) (by decide +kernel)
  · obtain rfl : f = featureRow 2 1 := List.mem_singleton.mp second
    have ofSecondRun : some restarted2 = some feature := atFeature
    have ofFirstRun : some label2 = some label := atLabel
    cases ofSecondRun
    cases ofFirstRun
    exact absurd same (by decide)

end Amel
