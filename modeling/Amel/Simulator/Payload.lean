import Amel.Ingestor.Validate
import Amel.Python.Format

namespace Amel

open Python (Text text zeroPad)
open Python.Json (Value JsonFloat setItem)

/-- A row of the dataset, its floats as they print. -/
structure HiggsRow where
  target : Int
  features : List (String × JsonFloat)

/-- `f"higgs-{index:09d}"`. -/
def higgsEntityId (index : Nat) : String := "higgs-" ++ String.ofList (zeroPad 9 index)

/-- A `dict` on its way to `json.dumps`. -/
abbrev Payload := List (Text × Value)

/-- `FeatureEvent(...).model_dump(mode="json")`. -/
def featurePayload (entityId : String) (row : HiggsRow) (eventTimestamp traceId : Text) : Payload :=
  [(text "event_id", .str (text ("feat-" ++ entityId))),
    (text "entity_id", .str (text entityId)),
    (text "event_timestamp", .str eventTimestamp),
    (text "schema_version", .str (text featureSchemaVersion)),
    (text "source", .str (text "source_simulator")),
    (text "features", .dict (row.features.map fun (name, value) => (text name, .float value))),
    (text "trace_id", .str traceId)]

def labelPayload (entityId : String) (row : HiggsRow) (labelTimestamp : Text) : Payload :=
  [(text "event_id", .str (text ("label-" ++ entityId))),
    (text "entity_id", .str (text entityId)),
    (text "target", .int row.target),
    (text "label_timestamp", .str labelTimestamp),
    (text "schema_version", .str (text labelSchemaVersion))]

/-- `_FEATURE_STRATEGIES`, with the field that `drop_field` picks. -/
inductive FeatureStrategy
  | dropField (choice : Fin 3)
  | wrongType
  | extraField
  | truncatedFeatures

/-- `_LABEL_STRATEGIES`, with the field or the target picked. -/
inductive LabelStrategy
  | dropField (choice : Fin 3)
  | targetOutOfRange (choice : Fin 3)
  | wrongType

def FeatureStrategy.name : FeatureStrategy → String
  | dropField _ => "drop_field"
  | wrongType => "wrong_type"
  | extraField => "extra_field"
  | truncatedFeatures => "truncated_features"

def LabelStrategy.name : LabelStrategy → String
  | dropField _ => "drop_field"
  | targetOutOfRange _ => "target_out_of_range"
  | wrongType => "wrong_type"

/-- `payload.pop(key, None)`. -/
def popItem (key : Text) (payload : Payload) : Payload := payload.filter fun (k, _) => k ≠ key

/-- `payload["features"]` replaced where it is a dict. -/
def changeFeatures (change : Payload → Payload) (payload : Payload) : Payload :=
  match payload.lookup (text "features") with
  | some (.dict features) => setItem (text "features") (.dict (change features)) payload
  | _ => payload

def malformedStrategy : Text := text "_malformed_strategy"

def corruptFeaturePayload (strategy : FeatureStrategy) (payload : Payload) : Payload :=
  setItem malformedStrategy (.str (text strategy.name)) <|
    match strategy with
    | .dropField choice => popItem (text (["entity_id", "event_timestamp", "features"].get choice)) payload
    | .wrongType => setItem (text "features") (.str (text "not-a-dict")) payload
    | .extraField => changeFeatures (setItem (text "unexpected_field") (.float (.literal (text "1.0")))) payload
    | .truncatedFeatures => changeFeatures (fun features =>
        let drop := (features.map Prod.fst).take (max 1 (features.length / 2))
        features.filter fun (k, _) => k ∉ drop) payload

def corruptLabelPayload (strategy : LabelStrategy) (payload : Payload) : Payload :=
  setItem malformedStrategy (.str (text strategy.name)) <|
    match strategy with
    | .dropField choice => popItem (text (["entity_id", "target", "label_timestamp"].get choice)) payload
    | .targetOutOfRange choice => setItem (text "target") (.int ([2, -1, 99].get choice)) payload
    | .wrongType => setItem (text "target") (.str (text "signal")) payload

def featureEventFields : List Text :=
  ["event_id", "entity_id", "event_timestamp", "schema_version", "source", "features", "trace_id"].map text

def labelEventFields : List Text :=
  ["event_id", "entity_id", "target", "label_timestamp", "schema_version"].map text

/-- What the event classes declare: `extra="forbid"`, and a `str` field
takes a string as it stands. -/
structure Pydantic.Declared (pydantic : Pydantic) : Prop where
  feature : ∀ payload event, pydantic.featureEvent (.dict payload) = .ok event →
    (∀ key ∈ payload.map Prod.fst, key ∈ featureEventFields) ∧
      payload.lookup (text "entity_id") = some (.str event.entityId)
  label : ∀ payload event, pydantic.labelEvent (.dict payload) = .ok event →
    (∀ key ∈ payload.map Prod.fst, key ∈ labelEventFields) ∧
      payload.lookup (text "entity_id") = some (.str event.entityId)

theorem higgsEntityId_toList (index : Nat) :
    (higgsEntityId index).toList = "higgs-".toList ++ Python.zeroPad 9 index := by
  rw [higgsEntityId, String.toList_append]
  exact congrArg ("higgs-".toList ++ ·) String.toList_ofList

theorem higgsEntityId_injective : Function.Injective higgsEntityId := by
  intro a b same
  have digits := congrArg String.toList same
  rw [higgsEntityId_toList, higgsEntityId_toList, List.append_cancel_left_eq] at digits
  exact Python.zeroPad_injective 9 digits

theorem key_mem_setItem (key : Text) (value : Value) (payload : Payload) :
    key ∈ (setItem key value payload).map Prod.fst := by
  induction payload with
  | nil => exact List.mem_singleton.mpr rfl
  | cons item rest ih =>
    unfold setItem
    split
    · rename_i same
      exact same ▸ List.mem_cons_self ..
    · exact List.mem_cons_of_mem _ ih

/-- A record of a topic, by the object its value is the JSON of. The index,
the row of the dataset and whether the payload was corrupted are kept for
the record. -/
structure Record where
  index : Nat
  datasetRow : Nat
  malformed : Bool
  payload : Payload
  marked : malformed = true → malformedStrategy ∈ payload.map Prod.fst
  named : malformed = false → payload.lookup (text "entity_id") = some (.str (text (higgsEntityId index)))

/-- What the clock and the generators gave for a feature event. -/
structure FeatureDraw where
  eventTimestamp : Text
  traceId : Text
  corruption : Option FeatureStrategy
  duplicate : Bool

structure LabelDraw where
  labelTimestamp : Text
  corruption : Option LabelStrategy
  duplicate : Bool

def Record.feature (index datasetRow : Nat) (row : HiggsRow) (draw : FeatureDraw) : Record :=
  let payload := featurePayload (higgsEntityId index) row draw.eventTimestamp draw.traceId
  match draw.corruption with
  | none => { index, datasetRow, malformed := false, payload, marked := nofun, named := fun _ => rfl }
  | some strategy =>
    { index, datasetRow, malformed := true, payload := corruptFeaturePayload strategy payload
      marked := fun _ => key_mem_setItem .., named := nofun }

def Record.label (index datasetRow : Nat) (row : HiggsRow) (draw : LabelDraw) : Record :=
  let payload := labelPayload (higgsEntityId index) row draw.labelTimestamp
  match draw.corruption with
  | none => { index, datasetRow, malformed := false, payload, marked := nofun, named := fun _ => rfl }
  | some strategy =>
    { index, datasetRow, malformed := true, payload := corruptLabelPayload strategy payload
      marked := fun _ => key_mem_setItem .., named := nofun }

namespace Record

variable {pydantic : Pydantic} {record : Record}

theorem feature_of (index datasetRow : Nat) (row : HiggsRow) (draw : FeatureDraw) :
    (feature index datasetRow row draw).index = index ∧
      (feature index datasetRow row draw).datasetRow = datasetRow := by
  unfold feature
  dsimp only
  split <;> exact ⟨rfl, rfl⟩

theorem label_of (index datasetRow : Nat) (row : HiggsRow) (draw : LabelDraw) :
    (label index datasetRow row draw).index = index ∧
      (label index datasetRow row draw).datasetRow = datasetRow := by
  unfold label
  dsimp only
  split <;> exact ⟨rfl, rfl⟩

/-- A corrupted payload has a key that no event class has. -/
theorem valid_of_fields {fields : List Text} (unknown : malformedStrategy ∉ fields)
    (forbids : ∀ key ∈ record.payload.map Prod.fst, key ∈ fields) : record.malformed = false := by
  cases corrupted : record.malformed with
  | false => rfl
  | true => exact absurd (forbids _ (record.marked corrupted)) unknown

theorem entityId_of_lookup {entityId : Text} (valid : record.malformed = false)
    (found : record.payload.lookup (text "entity_id") = some (.str entityId)) :
    entityId = text (higgsEntityId record.index) := by
  have same := found.symm.trans (record.named valid)
  simpa only [Option.some.injEq, Value.str.injEq] using same

/-- An event that validates was not corrupted and names the entity of its
index. -/
theorem of_featureEvent (declared : pydantic.Declared) {event : FeatureEvent}
    (reads : pydantic.featureEvent (.dict record.payload) = .ok event) :
    record.malformed = false ∧ event.entityId = text (higgsEntityId record.index) := by
  obtain ⟨forbids, found⟩ := declared.feature _ _ reads
  have valid := valid_of_fields (by decide) forbids
  exact ⟨valid, entityId_of_lookup valid found⟩

theorem of_labelEvent (declared : pydantic.Declared) {event : LabelEvent}
    (reads : pydantic.labelEvent (.dict record.payload) = .ok event) :
    record.malformed = false ∧ event.entityId = text (higgsEntityId record.index) := by
  obtain ⟨forbids, found⟩ := declared.label _ _ reads
  have valid := valid_of_fields (by decide) forbids
  exact ⟨valid, entityId_of_lookup valid found⟩

end Record

end Amel
