import Amel.Backfill.Materialize
import Amel.Ingestor.Storable

namespace Amel

open Python (Bytes text)
open Transition

def Event.timestamp : Event → Datetime
  | .feature event => event.eventTimestamp
  | .label event => event.labelTimestamp

/-- What the timestamp column keeps of the row built for a message, if the
column takes its literal. -/
def Route.storedTimestamp (ingestedAt : Int) : Route → Option Int
  | .feature row =>
    if timestampHolds row.event.eventTimestamp then some (row.toFeature ingestedAt).eventTimestamp else none
  | .label row =>
    if timestampHolds row.event.labelTimestamp then some (row.toLabel ingestedAt).labelTimestamp else none
  | .missingMetadata | .deadLetter _ | .raises _ => none

/-- Naive, or aware in UTC. -/
def Datetime.IsUtc (stamp : Datetime) : Prop := stamp.utcoffset = none ∨ stamp.utcoffset = some 0

/-- The wall-clock reading of a timestamp is its instant in UTC only. -/
theorem Datetime.wall_eq_asUtc_iff (stamp : Datetime) : stamp.wall = stamp.asUtc ↔ stamp.IsUtc := by
  obtain ⟨wall, utcoffset⟩ := stamp
  cases utcoffset with
  | none => simp [asUtc, IsUtc]
  | some offset =>
    simp only [asUtc, IsUtc, Option.getD_some, reduceCtorEq, false_or, Option.some.injEq]
    omega

theorem Datetime.IsUtc.holds {stamp : Datetime} (utc : stamp.IsUtc) : timestampHolds stamp = true := by
  unfold timestampHolds
  rcases utc with naive | zero
  · rw [naive]
  · rw [zero]
    decide

/-- The column keeps the instant of a timestamp in UTC only. -/
theorem kept_instant_iff (stamp : Datetime) :
    (if timestampHolds stamp then some stamp.wall else none) = some stamp.asUtc ↔ stamp.IsUtc := by
  rw [← stamp.wall_eq_asUtc_iff]
  constructor
  · intro kept
    split at kept
    · exact Option.some.inj kept
    · cases kept
  · intro same
    rw [if_pos (stamp.wall_eq_asUtc_iff.mp same).holds, same]

variable {ingestor : Ingestor} {tp : TopicPartition} {value : Option Bytes} {event : Event}

/-- The row an accepted message becomes is stored with the instant of its
event exactly when the timestamp is naive or in UTC. -/
theorem Ingestor.storedTimestamp_iff (accepts : ingestor.Accepts tp.topic value event) (outside : Outside)
    (offset : Nat) (ingestedAt : Int) :
    (ingestor.route outside (.delivered tp offset value)).storedTimestamp ingestedAt = some event.timestamp.asUtc ↔
      event.timestamp.IsUtc := by
  rw [route_of_accepts accepts]
  cases event with
  | feature event => exact kept_instant_iff event.eventTimestamp
  | label event => exact kept_instant_iff event.labelTimestamp

/-- In UTC: a label of the simulator's. -/
theorem Ingestor.published_instant :
    (oneLabelIngestor.route ⟨fun _ => true, fun _ => 0⟩
      (.delivered labels0 0 (some publishedLabel))).storedTimestamp 0 = some 1767225600000000 :=
  (Ingestor.storedTimestamp_iff oneLabel_accepted ⟨fun _ => true, fun _ => 0⟩ 0 0).mpr (Or.inr rfl)

/-- The same label from a producer two hours ahead of UTC. -/
def offsetLabel : Bytes :=
  ("\x7b\"event_id\": \"label-higgs-000000001\", \"entity_id\": \"higgs-000000001\", " ++
    "\"target\": 1, \"label_timestamp\": \"2026-01-01T02:00:00+02:00\"\x7d").toList.map fun c => UInt8.ofNat c.toNat

/-- `model_validate` on that message; everything else is refused here. -/
def offsetLabelPydantic : Pydantic where
  featureEvent _ := .error 1
  labelEvent value := match value with
    | .dict [(_, .str eventId), (_, .str entityId), (_, .int target), (_, .str stamp)] =>
      if stamp = text "2026-01-01T02:00:00+02:00" then
        .ok ⟨eventId, entityId, target, ⟨1767232800000000, some 7200000000⟩, text labelSchemaVersion⟩
      else .error 1
    | _ => .error 1

def offsetLabelIngestor : Ingestor := ⟨{}, offsetLabelPydantic, ⟨1000, 4300⟩⟩

/-- Its row says two hours past the instant of the event. -/
theorem Ingestor.offset_shifts :
    ¬∀ (ingestor : Ingestor) (tp : TopicPartition) (value : Option Bytes) (event : Event) (outside : Outside)
      (offset : Nat) (ingestedAt : Int), ingestor.Accepts tp.topic value event →
      (ingestor.route outside (.delivered tp offset value)).storedTimestamp ingestedAt =
        some event.timestamp.asUtc := by
  intro denotes
  let event : Event := .label
    { labelHiggs1 with labelTimestamp := ⟨1767232800000000, some 7200000000⟩ }
  have accepted : offsetLabelIngestor.Accepts labels0.topic (some offsetLabel) event := by
    unfold Ingestor.Accepts
    decide +kernel
  have stored := denotes _ _ _ _ ⟨fun _ => true, fun _ => 0⟩ 0 0 accepted
  rw [Ingestor.route_of_accepts accepted] at stored
  exact absurd stored (by decide)

/-- Where every accepted event is naive or in UTC, every landing row has
the instant of an accepted event. -/
theorem Ingestor.landed_instants {group : Group} (reach : Reach ingestor.Step .initial group)
    (utc : ∀ (tp : TopicPartition) (offset : Nat) (value : Option Bytes) (event : Event),
      (group.shared.log tp)[offset]? = some value → ingestor.Accepts tp.topic value event → event.timestamp.IsUtc) :
    (∀ row ∈ group.shared.landing.features, ∃ value event,
      ingestor.Accepts ingestor.settings.featuresTopic value event ∧ text row.eventId = event.eventId ∧
        row.eventTimestamp = event.timestamp.asUtc) ∧
    ∀ row ∈ group.shared.landing.labels, ∃ value event,
      ingestor.Accepts ingestor.settings.labelsTopic value event ∧ text row.eventId = event.eventId ∧
        row.labelTimestamp = event.timestamp.asUtc := by
  obtain ⟨ingested, -⟩ := ingested_of_reach reach
  constructor
  · intro row member
    obtain ⟨value, event, found, accepts, storable, isRow⟩ := ingested.sourced.features row member
    have stored := Event.stored_eventId storable
    have same := (event.eventTimestamp.wall_eq_asUtc_iff).mpr (utc _ _ _ _ found accepts)
    refine ⟨value, .feature event, accepts, ?_, ?_⟩
    · rw [isRow]
      exact stored
    · rw [isRow]
      exact same
  · intro row member
    obtain ⟨value, event, found, accepts, storable, isRow⟩ := ingested.sourced.labels row member
    have stored := Event.stored_eventId storable
    have same := (event.labelTimestamp.wall_eq_asUtc_iff).mpr (utc _ _ _ _ found accepts)
    refine ⟨value, .label event, accepts, ?_, ?_⟩
    · rw [isRow]
      exact stored
    · rw [isRow]
      exact same

end Amel
