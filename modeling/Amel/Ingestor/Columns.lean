import Amel.Db.Models
import Amel.Ingestor.Validate

namespace Amel

open Python (Scalar Text characters text text_characters)

/-- A validated event with the place it was read from. -/
structure Row (Model : Type) where
  event : Model
  kafkaPartition : Nat
  kafkaOffset : Nat
  deriving DecidableEq, Repr

/-- A row of one class as a row of either. -/
def Row.map {Model : Type} (toEvent : Model → Event) (row : Row Model) : Row Event :=
  ⟨toEvent row.event, row.kafkaPartition, row.kafkaOffset⟩

/-- `model_dump(mode="json")` stored: the timestamp columns are WITHOUT TIME
ZONE, so the wall-clock reading of the literal is what they keep. -/
def Row.toFeature (row : Row FeatureEvent) (ingestedAt : Int) : HiggsFeatureEvent where
  eventId := characters row.event.eventId
  entityId := characters row.event.entityId
  eventTimestamp := row.event.eventTimestamp.wall
  schemaVersion := characters row.event.schemaVersion
  source := characters row.event.source
  features := row.event.features
  traceId := characters row.event.traceId
  kafkaPartition := row.kafkaPartition
  kafkaOffset := row.kafkaOffset
  ingestedAt := ingestedAt

def Row.toLabel (row : Row LabelEvent) (ingestedAt : Int) : HiggsLabelEvent where
  eventId := characters row.event.eventId
  entityId := characters row.event.entityId
  target := row.event.target
  labelTimestamp := row.event.labelTimestamp.wall
  schemaVersion := characters row.event.schemaVersion
  kafkaPartition := row.kafkaPartition
  kafkaOffset := row.kafkaOffset
  ingestedAt := ingestedAt

def FeatureEvent.texts (event : FeatureEvent) : List Text :=
  [event.eventId, event.entityId, event.schemaVersion, event.source, event.traceId]

def LabelEvent.texts (event : LabelEvent) : List Text := [event.eventId, event.entityId, event.schemaVersion]

/-- What goes into VARCHAR columns. -/
def Event.texts : Event → List Text
  | .feature event => event.texts
  | .label event => event.texts

/-- A value that is bound to a parameter of a statement. -/
inductive Bound
  | text (value : String)
  | integer (value : Int)
  | timestamp (value : Int)
  | json (value : Features)

/-- A row as it is given to `values`: what it binds to each of its columns. -/
abbrev BoundRow := List (String × Bound)

/-- The bind parameters of a multi-row INSERT, one for each column of each row. -/
def bindParameters (rows : List BoundRow) : List (String × Bound) := rows.flatten

def maxBindParameters : Nat := 65535

/-- The fields of the event and the place it was read from; the database
fills in `ingested_at`. -/
def HiggsFeatureEvent.bound (r : HiggsFeatureEvent) : BoundRow :=
  [("event_id", .text r.eventId), ("entity_id", .text r.entityId), ("event_timestamp", .timestamp r.eventTimestamp),
    ("schema_version", .text r.schemaVersion), ("source", .text r.source), ("features", .json r.features),
    ("trace_id", .text r.traceId), ("kafka_partition", .integer r.kafkaPartition),
    ("kafka_offset", .integer r.kafkaOffset)]

def HiggsLabelEvent.bound (r : HiggsLabelEvent) : BoundRow :=
  [("event_id", .text r.eventId), ("entity_id", .text r.entityId), ("target", .integer r.target),
    ("label_timestamp", .timestamp r.labelTimestamp), ("schema_version", .text r.schemaVersion),
    ("kafka_partition", .integer r.kafkaPartition), ("kafka_offset", .integer r.kafkaOffset)]

/-- Rows of one width bind that many parameters each. -/
theorem length_bindParameters {Row : Type} {bound : Row → BoundRow} (width : Nat) (rows : List Row)
    (wide : ∀ row, (bound row).length = width) : (bindParameters (rows.map bound)).length = rows.length * width := by
  unfold bindParameters
  induction rows with
  | nil => simp
  | cons row rest ih =>
    rw [List.map_cons, List.flatten_cons, List.length_append, wide, ih, List.length_cons, Nat.succ_mul]
    omega

/-- A value of a VARCHAR column: Postgres counts characters, no text holds a
NUL, and a lone surrogate cannot be encoded. -/
def varcharHolds (length : Nat) (value : Text) : Bool := value.length ≤ length ∧ 0 ∉ value ∧ Scalar value

/-- A value of an integer column of a width in bits. -/
def integerHolds (bits : Nat) (value : Int) : Bool := -2 ^ (bits - 1) ≤ value && value < 2 ^ (bits - 1)

/-- A literal of a TIMESTAMP column. Its UTC offset is read before it is
dropped, and Postgres reads none of 16 hours and more. -/
def timestampHolds (stamp : Datetime) : Bool :=
  match stamp.utcoffset with
  | none => true
  | some offset => offset.natAbs < 16 * 60 * 60 * 1000000

/-- A dict in a JSON column: `json.dumps` writes NaN and Infinity as the
tokens that Postgres rejects. -/
def FloatDump.jsonHolds (floats : FloatDump) (features : Features) : Bool :=
  features.all fun (_, value) => (floats.dump value).all Python.Double.isFinite

/-- The columns of `landing.higgs_feature_events` hold the row. -/
def Row.featureStorable (floats : FloatDump) (row : Row FeatureEvent) : Bool :=
  varcharHolds 64 row.event.eventId && varcharHolds 64 row.event.entityId &&
    timestampHolds row.event.eventTimestamp && varcharHolds 16 row.event.schemaVersion &&
    varcharHolds 64 row.event.source && floats.jsonHolds row.event.features && varcharHolds 64 row.event.traceId &&
    integerHolds 32 row.kafkaPartition && integerHolds 32 row.kafkaOffset

/-- The columns of `landing.higgs_label_events` hold the row. -/
def Row.labelStorable (row : Row LabelEvent) : Bool :=
  varcharHolds 64 row.event.eventId && varcharHolds 64 row.event.entityId && integerHolds 16 row.event.target &&
    timestampHolds row.event.labelTimestamp && varcharHolds 16 row.event.schemaVersion &&
    integerHolds 32 row.kafkaPartition && integerHolds 32 row.kafkaOffset

/-- The columns hold the row that the ingestor builds of the event. -/
def Event.storable (floats : FloatDump) (partition offset : Nat) : Event → Bool
  | .feature event => Row.featureStorable floats ⟨event, partition, offset⟩
  | .label event => Row.labelStorable ⟨event, partition, offset⟩

def Row.storable (floats : FloatDump) (row : Row Event) : Bool :=
  row.event.storable floats row.kafkaPartition row.kafkaOffset

theorem varcharHolds_iff {length : Nat} {value : Text} :
    varcharHolds length value = true ↔ value.length ≤ length ∧ 0 ∉ value ∧ Scalar value := decide_eq_true_iff

theorem integerHolds_natCast_iff {value : Nat} : integerHolds 32 value = true ↔ value < 2 ^ 31 := by
  simp only [integerHolds, Bool.and_eq_true, decide_eq_true_eq]
  omega

theorem timestampHolds_iff {stamp : Datetime} : timestampHolds stamp = true ↔
    ∀ offset, stamp.utcoffset = some offset → offset.natAbs < 16 * 60 * 60 * 1000000 := by
  unfold timestampHolds
  split <;> simp [*]

theorem FloatDump.jsonHolds_iff {floats : FloatDump} {features : Features} : floats.jsonHolds features = true ↔
    ∀ name value, (name, value) ∈ features → Python.Double.isFinite value = true ∨ floats.dump value = none := by
  simp only [jsonHolds, List.all_eq_true, Prod.forall]
  refine forall₃_congr fun name value _ => ?_
  cases dumped : floats.dump value with
  | none => simp
  | some y =>
    obtain rfl := floats.same value y dumped
    simp

/-- What the columns hold is stored as it stands. -/
theorem Event.stored_text {floats : FloatDump} {partition offset : Nat} {event : Event} {value : Text}
    (storable : event.storable floats partition offset = true) (member : value ∈ event.texts) :
    text (characters value) = value := by
  have scalar : ∀ value ∈ event.texts, Scalar value := by
    cases event with
    | feature event =>
      simp only [Event.storable, Row.featureStorable, Bool.and_eq_true, varcharHolds_iff] at storable
      obtain ⟨⟨⟨⟨⟨⟨⟨⟨eventId, entityId⟩, -⟩, schema⟩, source⟩, -⟩, traceId⟩, -⟩, -⟩ := storable
      simp only [texts, FeatureEvent.texts, List.forall_mem_cons]
      exact ⟨eventId.2.2, entityId.2.2, schema.2.2, source.2.2, traceId.2.2, List.forall_mem_nil _⟩
    | label event =>
      simp only [Event.storable, Row.labelStorable, Bool.and_eq_true, varcharHolds_iff] at storable
      obtain ⟨⟨⟨⟨⟨⟨eventId, entityId⟩, -⟩, -⟩, schema⟩, -⟩, -⟩ := storable
      simp only [texts, LabelEvent.texts, List.forall_mem_cons]
      exact ⟨eventId.2.2, entityId.2.2, schema.2.2, List.forall_mem_nil _⟩
  exact text_characters (scalar value member)

theorem Event.stored_eventId {floats : FloatDump} {partition offset : Nat} {event : Event}
    (storable : event.storable floats partition offset = true) : text (characters event.eventId) = event.eventId :=
  stored_text storable (by cases event <;> exact List.mem_cons_self)

end Amel
