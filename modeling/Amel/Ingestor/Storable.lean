import Amel.Ingestor.Persisted

namespace Amel

open Python (Bytes Scalar Text text)

/-- `_write_batch` raises with a healthy database: a column or the protocol
does not take what it is given, or a text cannot be encoded. -/
structure DataError where
  deriving DecidableEq, Repr

/-- `_write_batch` with a healthy database: one transaction, which a value
that a column does not hold aborts. -/
def Batch.writeBatch (work : Batch) (floats : FloatDump) (now : Int) : Except DataError Unit :=
  if work.storable floats now then .ok () else .error {}

/-- The loop of `_write_with_retry`, with so many attempts left after this one. -/
def retry {α : Type} (write : Nat → Except DataError α) : Nat → Except DataError α
  | 0 => write 0
  | left + 1 => match write (left + 1) with
    | .ok result => .ok result
    | .error _ => retry write left

/-- `_write_with_retry`, by the clock at the attempt with so many left. -/
def Batch.writeWithRetry (work : Batch) (floats : FloatDump) (clock : Nat → Int) (maxRetries : Nat) :
    Except DataError Unit :=
  if work.featuresRows.isEmpty && work.labelsRows.isEmpty then .ok ()
  else retry (fun left => work.writeBatch floats (clock left)) maxRetries

/-- What the event models leave open and the columns do not: how long the
texts are, NUL, lone surrogates, large UTC offsets, and floats that are not
finite and not dumped as None. -/
structure FeatureEvent.Fits (floats : FloatDump) (event : FeatureEvent) : Prop where
  eventId : event.eventId.length ≤ 64
  entityId : event.entityId.length ≤ 64
  schemaVersion : event.schemaVersion.length ≤ 16
  source : event.source.length ≤ 64
  traceId : event.traceId.length ≤ 64
  noNul : ∀ text ∈ event.texts, 0 ∉ text
  noSurrogate : ∀ text ∈ event.texts, Scalar text
  eventTimestamp : ∀ offset, event.eventTimestamp.utcoffset = some offset → offset.natAbs < 16 * 60 * 60 * 1000000
  features : ∀ name value, (name, value) ∈ event.features →
    Python.Double.isFinite value = true ∨ floats.dump value = none

structure LabelEvent.Fits (event : LabelEvent) : Prop where
  eventId : event.eventId.length ≤ 64
  entityId : event.entityId.length ≤ 64
  schemaVersion : event.schemaVersion.length ≤ 16
  noNul : ∀ text ∈ event.texts, 0 ∉ text
  noSurrogate : ∀ text ∈ event.texts, Scalar text
  labelTimestamp : ∀ offset, event.labelTimestamp.utcoffset = some offset → offset.natAbs < 16 * 60 * 60 * 1000000

def Event.Fits (floats : FloatDump) : Event → Prop
  | .feature event => event.Fits floats
  | .label event => event.Fits

/-- `target: Annotated[int, Field(ge=0, le=1)]`. -/
def Pydantic.BoundsTarget (pydantic : Pydantic) : Prop :=
  ∀ value event, pydantic.labelEvent value = .ok event → 0 ≤ event.target ∧ event.target ≤ 1

variable {floats : FloatDump} {ingestor : Ingestor} {outside : Outside}

theorem featureStorable_iff {row : Row FeatureEvent} (partition : row.kafkaPartition < 2 ^ 31) :
    row.featureStorable floats = true ↔ row.event.Fits floats ∧ row.kafkaOffset < 2 ^ 31 := by
  simp only [Row.featureStorable, Bool.and_eq_true, varcharHolds_iff, timestampHolds_iff, FloatDump.jsonHolds_iff,
    integerHolds_natCast_iff]
  constructor
  · rintro ⟨⟨⟨⟨⟨⟨⟨⟨eventId, entityId⟩, stamp⟩, schema⟩, source⟩, features⟩, traceId⟩, -⟩, offset⟩
    refine ⟨⟨eventId.1, entityId.1, schema.1, source.1, traceId.1, ?_, ?_, stamp, features⟩, offset⟩
    · simp only [FeatureEvent.texts, List.forall_mem_cons, List.not_mem_nil, false_implies, implies_true, and_true]
      exact ⟨eventId.2.1, entityId.2.1, schema.2.1, source.2.1, traceId.2.1⟩
    · simp only [FeatureEvent.texts, List.forall_mem_cons, List.not_mem_nil, false_implies, implies_true, and_true]
      exact ⟨eventId.2.2, entityId.2.2, schema.2.2, source.2.2, traceId.2.2⟩
  · rintro ⟨⟨eventId, entityId, schema, source, traceId, noNul, noSurrogate, stamp, features⟩, offset⟩
    have each {text : Text} (member : text ∈ row.event.texts) : 0 ∉ text ∧ Scalar text :=
      ⟨noNul text member, noSurrogate text member⟩
    exact ⟨⟨⟨⟨⟨⟨⟨⟨⟨eventId, each (by simp [FeatureEvent.texts])⟩, entityId, each (by simp [FeatureEvent.texts])⟩,
      stamp⟩, schema, each (by simp [FeatureEvent.texts])⟩, source, each (by simp [FeatureEvent.texts])⟩, features⟩,
      traceId, each (by simp [FeatureEvent.texts])⟩, partition⟩, offset⟩

theorem labelStorable_iff {row : Row LabelEvent} (partition : row.kafkaPartition < 2 ^ 31)
    (target : 0 ≤ row.event.target ∧ row.event.target ≤ 1) :
    row.labelStorable = true ↔ row.event.Fits ∧ row.kafkaOffset < 2 ^ 31 := by
  have inColumn : integerHolds 16 row.event.target = true := by
    simp only [integerHolds, Bool.and_eq_true, decide_eq_true_eq]
    omega
  simp only [Row.labelStorable, Bool.and_eq_true, varcharHolds_iff, timestampHolds_iff, integerHolds_natCast_iff]
  constructor
  · rintro ⟨⟨⟨⟨⟨⟨eventId, entityId⟩, -⟩, stamp⟩, schema⟩, -⟩, offset⟩
    refine ⟨⟨eventId.1, entityId.1, schema.1, ?_, ?_, stamp⟩, offset⟩
    · simp only [LabelEvent.texts, List.forall_mem_cons, List.not_mem_nil, false_implies, implies_true, and_true]
      exact ⟨eventId.2.1, entityId.2.1, schema.2.1⟩
    · simp only [LabelEvent.texts, List.forall_mem_cons, List.not_mem_nil, false_implies, implies_true, and_true]
      exact ⟨eventId.2.2, entityId.2.2, schema.2.2⟩
  · rintro ⟨⟨eventId, entityId, schema, noNul, noSurrogate, stamp⟩, offset⟩
    have each {text : Text} (member : text ∈ row.event.texts) : 0 ∉ text ∧ Scalar text :=
      ⟨noNul text member, noSurrogate text member⟩
    exact ⟨⟨⟨⟨⟨⟨⟨eventId, each (by simp [LabelEvent.texts])⟩, entityId, each (by simp [LabelEvent.texts])⟩,
      inColumn⟩, stamp⟩, schema, each (by simp [LabelEvent.texts])⟩, partition⟩, offset⟩

/-- A label that was accepted went through the bounds of its class. -/
theorem Ingestor.Accepts.target_bounded {topic : String} {raw : Option Bytes} {event : LabelEvent}
    (accepts : ingestor.Accepts topic raw (.label event)) (bounds : ingestor.pydantic.BoundsTarget) :
    0 ≤ event.target ∧ event.target ≤ 1 := by
  cases raw with
  | none => cases accepts
  | some bytes =>
    cases loaded : Python.Json.loads ingestor.limits bytes with
    | ok data => exact bounds data event (accepts.labelEvent loaded)
    | error raised =>
      simp only [Accepts, validate, loaded] at accepts
      cases raised <;> cases accepts

theorem Ingestor.storable_iff (bounds : ingestor.pydantic.BoundsTarget) {tp : TopicPartition} {offset : Nat}
    {raw : Option Bytes} {event : Event} (partition : tp.partition < 2 ^ 31)
    (accepts : ingestor.Accepts tp.topic raw event) :
    event.storable floats tp.partition offset = true ↔ event.Fits floats ∧ offset < 2 ^ 31 := by
  cases event with
  | feature event => exact featureStorable_iff partition
  | label event => exact labelStorable_iff partition (accepts.target_bounded bounds)

/-- Trying again changes nothing when every attempt ends the same way. -/
theorem retry_ok_iff {write : Nat → Except DataError Unit} {holds : Prop}
    (same : ∀ left, write left = .ok () ↔ holds) (left : Nat) : retry write left = .ok () ↔ holds := by
  induction left with
  | zero => exact same 0
  | succ left ih =>
    rw [retry]
    cases written : write (left + 1) with
    | ok => exact iff_of_true rfl ((same _).mp written)
    | error => exact ih

/-- With a healthy database the write goes through exactly when its tables
take the rows. -/
theorem Batch.writeWithRetry_ok_iff {work : Batch} {clock : Nat → Int} {maxRetries : Nat} (now : Int) :
    work.writeWithRetry floats clock maxRetries = .ok () ↔ work.storable floats now = true := by
  unfold writeWithRetry
  split
  · rename_i empty
    simp only [Bool.and_eq_true, List.isEmpty_iff] at empty
    exact iff_of_true rfl (storable_nothing floats now empty.1 empty.2)
  · refine retry_ok_iff (fun left => ?_) maxRetries
    have anyTime : work.storable floats (clock left) = true ↔ work.storable floats now = true := by
      rw [storable_iff, storable_iff]
    rw [← anyTime, writeBatch]
    split
    · rename_i takes
      exact iff_of_true rfl takes
    · rename_i refuses
      exact iff_of_false (by rintro ⟨⟩) refuses

/-- The row of an accepted message satisfies the types of its columns exactly
when the texts of the event fit them and hold neither NUL nor a lone
surrogate, its UTC offset is below 16 hours, its floats are finite, and its
Kafka offset is a 32-bit integer. And with a healthy database a batch gets
through `_write_with_retry` exactly when that is so of every message in it
that is accepted, and these are few enough for one INSERT into each table. -/
theorem Ingestor.accepted_storable_iff (ingestor : Ingestor) (bounds : ingestor.pydantic.BoundsTarget) :
    (∀ (tp : TopicPartition) (offset : Nat) (raw : Option Bytes) (event : Event), tp.partition < 2 ^ 31 →
      ingestor.Accepts tp.topic raw event →
      (event.storable ingestor.pydantic.floats tp.partition offset = true ↔
        event.Fits ingestor.pydantic.floats ∧ offset < 2 ^ 31)) ∧
    ∀ (outside : Outside) (batch : List Message) (work : Batch) (clock : Nat → Int),
      (∀ msg ∈ batch, ∃ tp offset value, msg = .delivered tp offset value ∧ tp.partition < 2 ^ 31) →
      ingestor.processMessages outside {} batch = (work, none) →
      (work.writeWithRetry ingestor.pydantic.floats clock ingestor.settings.maxRetries = .ok () ↔
        ingestor.WithinLimit batch ∧
        ∀ tp offset value event, Message.delivered tp offset value ∈ batch →
          ingestor.Accepts tp.topic value event → event.Fits ingestor.pydantic.floats ∧ offset < 2 ^ 31) := by
  refine ⟨fun tp offset raw event partition accepts => storable_iff bounds partition accepts,
    fun outside batch work clock delivered finished => ?_⟩
  have places : ∀ msg ∈ batch, ∃ tp offset value, msg = .delivered tp offset value := by
    intro msg member
    obtain ⟨tp, offset, value, same, -⟩ := delivered msg member
    exact ⟨tp, offset, value, same⟩
  have bounded {tp : TopicPartition} {offset : Nat} {value : Option Bytes}
      (member : Message.delivered tp offset value ∈ batch) : tp.partition < 2 ^ 31 := by
    obtain ⟨⟨_, _⟩, _, _, same, partition⟩ := delivered _ member
    cases same
    exact partition
  obtain ⟨-, rfl⟩ := processMessages_finished_iff.mp finished
  rw [Batch.writeWithRetry_ok_iff 0, absorbAll_storable_iff outside 0 places]
  refine and_congr_right fun _ => forall₄_congr fun tp offset value event => ?_
  refine forall₂_congr fun member accepts => ?_
  exact storable_iff bounds (bounded member) accepts

/-- `model_validate` that reads labels of the one instant, within bounds. -/
def boundedLabelPydantic : Pydantic where
  featureEvent _ := .error 1
  labelEvent value := match oneLabelPydantic.labelEvent value with
    | .ok event => if 0 ≤ event.target ∧ event.target ≤ 1 then .ok event else .error 1
    | .error count => .error count

theorem boundedLabelPydantic_bounds : boundedLabelPydantic.BoundsTarget := by
  intro value event read
  simp only [boundedLabelPydantic] at read
  split at read
  · split at read
    · rename_i bounded
      cases read
      exact bounded
    · cases read
  · cases read

def boundedLabelIngestor : Ingestor := ⟨{}, boundedLabelPydantic, ⟨1000, 4300⟩⟩

theorem Ingestor.published_label_storable :
    boundedLabelIngestor.Accepts labels0.topic (some publishedLabel) (.label labelHiggs1) ∧
      (Event.label labelHiggs1).storable .asIs labels0.partition 0 = true := by
  have accepts : boundedLabelIngestor.Accepts labels0.topic (some publishedLabel) (.label labelHiggs1) := by
    unfold Ingestor.Accepts
    decide +kernel
  have storable := (Ingestor.accepted_storable_iff boundedLabelIngestor boundedLabelPydantic_bounds).1
  refine ⟨accepts, (storable labels0 0 _ _ (by decide) accepts).mpr ⟨⟨?_, ?_, ?_, ?_, ?_, ?_⟩, by decide⟩⟩
  · decide
  · decide
  · decide
  · decide
  · decide
  · rintro _ ⟨⟩
    decide

/-- A label message whose entity id ends in the escape of a lone surrogate. -/
def surrogateLabel : Bytes :=
  ("\x7b\"event_id\": \"label-1\", \"entity_id\": \"\\ud800\", " ++
    "\"target\": 1, \"label_timestamp\": \"2026-01-01T00:00:00Z\"\x7d").toList.map fun c => UInt8.ofNat c.toNat

/-- `json.loads` keeps the surrogate and the models let it through; no text
that is sent to the database can hold it. -/
example : ∃ event : LabelEvent,
    boundedLabelIngestor.Accepts labels0.topic (some surrogateLabel) (.label event) ∧ event.entityId = [0xD800] ∧
      (Event.label event).storable .asIs 0 0 = false := by
  refine ⟨⟨text "label-1", [0xD800], 1, ⟨1767225600000000, some 0⟩, text "1.0.0"⟩, ?_, rfl, by decide⟩
  unfold Ingestor.Accepts
  decide +kernel

/-- A label message with an entity id of 65 characters. -/
def longEntityLabel : Bytes :=
  ("\x7b\"event_id\": \"label\", \"entity_id\": \"".toList ++ List.replicate 65 'e' ++
    "\", \"target\": 1, \"label_timestamp\": \"2026-01-01T00:00:00Z\"\x7d".toList).map fun c => UInt8.ofNat c.toNat

/-- The models do not bound the entity id, and its column does. -/
theorem Ingestor.long_entity_id_not_storable :
    ¬∀ (ingestor : Ingestor) (tp : TopicPartition) (offset : Nat) (raw : Option Bytes)
      (event : Event), ingestor.pydantic.BoundsTarget → ingestor.settings.Subscribed tp.topic →
      tp.partition < 2 ^ 31 → offset < 2 ^ 63 → ingestor.Accepts tp.topic raw event →
      event.storable ingestor.pydantic.floats tp.partition offset = true := by
  intro storable
  let event : LabelEvent := ⟨text "label", List.replicate 65 0x65, 1, ⟨1767225600000000, some 0⟩, text "1.0.0"⟩
  have accepts : boundedLabelIngestor.Accepts labels0.topic (some longEntityLabel) (.label event) := by
    unfold Ingestor.Accepts
    decide +kernel
  have stored := storable boundedLabelIngestor labels0 0 _ _ boundedLabelPydantic_bounds (Or.inr rfl) (by decide)
    (by decide) accepts
  have tooLong : (Event.label event).storable .asIs 0 0 = false := by decide
  exact Bool.noConfusion (tooLong.symm.trans stored)

end Amel
