import Mathlib.Data.Rat.Init
import Amel.Common.Events
import Amel.Python.Double
import Amel.Python.Json

namespace Amel

open Python (Bytes Text b64encode)
open Python.Json (Value Limits LoadsError loads Undisturbed loads_iff errorText)

/-- The topics and bounds the consume loop reads. -/
structure IngestorSettings where
  featuresTopic : String := "higgs.features.v1"
  labelsTopic : String := "higgs.labels.v1"
  featuresDlqTopic : String := "higgs.features.dlq"
  labelsDlqTopic : String := "higgs.labels.dlq"
  batchSize : Nat := 500
  batchTimeoutSeconds : ℚ := 2
  maxRetries : Nat := 5

/-- `Settings.dlq_topic_for`; `none` where it raises ValueError. -/
def IngestorSettings.dlqTopicFor (settings : IngestorSettings) (topic : String) : Option String :=
  if topic = settings.featuresTopic then some settings.featuresDlqTopic
  else if topic = settings.labelsTopic then some settings.labelsDlqTopic
  else none

/-- The two topics the consumer subscribes to. -/
def IngestorSettings.Subscribed (settings : IngestorSettings) (topic : String) : Prop :=
  topic = settings.featuresTopic ∨ topic = settings.labelsTopic

theorem IngestorSettings.dlqTopicFor_isSome {settings : IngestorSettings} {topic : String}
    (subscribed : settings.Subscribed topic) : ∃ dlqTopic, settings.dlqTopicFor topic = some dlqTopic := by
  unfold dlqTopicFor
  by_cases features : topic = settings.featuresTopic
  · exact ⟨_, if_pos features⟩
  · exact ⟨_, by rw [if_neg features, if_pos (subscribed.resolve_left features)]⟩

/-- What `model_dump(mode="json")` makes of a float: itself or None. -/
structure FloatDump where
  dump : Float64 → Option Float64
  finite : ∀ x, Python.Double.isFinite x = true → dump x = some x
  same : ∀ x y, dump x = some y → y = x

/-- Floats that are dumped as they are. -/
def FloatDump.asIs : FloatDump := ⟨some, fun _ _ => rfl, fun _ _ => Option.some.inj ∘ Eq.symm⟩

/-- `model_validate` of the two event classes: a model, or the error count of
a ValidationError, which is the only exception it raises; and how models are
dumped. -/
structure Pydantic where
  featureEvent : Value → Except Nat FeatureEvent
  labelEvent : Value → Except Nat LabelEvent
  floats : FloatDump := .asIs

/-- What an ingestor process is started with. -/
structure Ingestor where
  settings : IngestorSettings
  pydantic : Pydantic
  limits : Limits

/-- A validated model of either class. -/
inductive Event
  | feature (event : FeatureEvent)
  | label (event : LabelEvent)
  deriving DecidableEq, Repr

def Event.eventId : Event → Text
  | .feature event => event.eventId
  | .label event => event.eventId

/-- The topic of the event's class. -/
def Event.topic (settings : IngestorSettings) : Event → String
  | .feature _ => settings.featuresTopic
  | .label _ => settings.labelsTopic

def schemaReason (errorCount : Nat) : String := s!"schema_validation_failed: {errorCount} error(s)"

/-- `model_validate` of the class that goes with the topic. -/
def Ingestor.modelValidate (ingestor : Ingestor) (topic : String) (data : Value) : Except Nat Event :=
  if topic = ingestor.settings.featuresTopic then (ingestor.pydantic.featureEvent data).map .feature
  else (ingestor.pydantic.labelEvent data).map .label

/-- `StreamIngestor._validate`: an event or the reason for its rejection.
Only JSONDecodeError is caught around `json.loads`; whatever else that
raises leaves the method. -/
def Ingestor.validate (ingestor : Ingestor) (topic : String) (raw : Option Bytes) :
    Except LoadsError (Except String Event) :=
  match raw with
  | none => .ok (.error "empty_message_value")
  | some bytes =>
    match loads ingestor.limits bytes with
    | .error (.jsonDecodeError message doc pos) => .ok (.error ("invalid_json: " ++ errorText message doc pos))
    | .error raised => .error raised
    | .ok data => .ok ((ingestor.modelValidate topic data).mapError schemaReason)

def Ingestor.Accepts (ingestor : Ingestor) (topic : String) (raw : Option Bytes) (event : Event) : Prop :=
  ingestor.validate topic raw = .ok (.ok event)

def Ingestor.Rejects (ingestor : Ingestor) (topic : String) (raw : Option Bytes) (reason : String) : Prop :=
  ingestor.validate topic raw = .ok (.error reason)

/-- A message value on which `json.loads` raises nothing that `_validate`
does not catch. -/
def Ingestor.Harmless (ingestor : Ingestor) (raw : Option Bytes) : Prop :=
  ∀ bytes, raw = some bytes → Undisturbed ingestor.limits bytes

/-- `_validate` returns exactly on harmless values. -/
theorem Ingestor.validate_returns_iff (ingestor : Ingestor) (topic : String) (raw : Option Bytes) :
    (∃ verdict, ingestor.validate topic raw = .ok verdict) ↔ ingestor.Harmless raw := by
  cases raw with
  | none => simp [Harmless, validate]
  | some bytes =>
    simp only [Harmless, Option.some.injEq, forall_eq']
    rw [← loads_iff, validate]
    cases loads ingestor.limits bytes with
    | ok data => exact ⟨fun _ => Or.inl ⟨data, rfl⟩, fun _ => ⟨_, rfl⟩⟩
    | error raised =>
      cases raised with
      | jsonDecodeError message doc pos => exact ⟨fun _ => Or.inr ⟨message, doc, pos, rfl⟩, fun _ => ⟨_, rfl⟩⟩
      | _ => simp

/-- The class of an accepted event is the one of its topic. -/
theorem Ingestor.Accepts.class_of_topic {ingestor : Ingestor} {topic : String} {raw : Option Bytes} {event : Event}
    (accepts : ingestor.Accepts topic raw event) :
    (∃ e, event = .feature e) ↔ topic = ingestor.settings.featuresTopic := by
  unfold Accepts validate at accepts
  split at accepts
  · cases accepts
  · split at accepts
    · cases accepts
    · cases accepts
    · rename_i bytes data loaded
      unfold modelValidate at accepts
      split at accepts
      · rename_i isFeatures
        cases parsed : ingestor.pydantic.featureEvent data <;> rw [parsed] at accepts <;> cases accepts
        exact ⟨fun _ => isFeatures, fun _ => ⟨_, rfl⟩⟩
      · rename_i isLabels
        cases parsed : ingestor.pydantic.labelEvent data <;> rw [parsed] at accepts <;> cases accepts
        exact ⟨fun ⟨_, same⟩ => Event.noConfusion same, fun same => absurd same isLabels⟩

theorem Ingestor.Accepts.topic {ingestor : Ingestor} {topic : String} {raw : Option Bytes} {event : Event}
    (accepts : ingestor.Accepts topic raw event) (subscribed : ingestor.settings.Subscribed topic) :
    topic = event.topic ingestor.settings := by
  have ofTopic := accepts.class_of_topic
  cases event with
  | feature event => exact ofTopic.mp ⟨event, rfl⟩
  | label event =>
    refine subscribed.resolve_left fun features => ?_
    obtain ⟨_, impossible⟩ := ofTopic.mpr features
    cases impossible

/-- What was accepted is what the event class made of the decoded value. -/
theorem Ingestor.Accepts.modelValidate {ingestor : Ingestor} {topic : String} {bytes : Bytes} {event : Event}
    (accepts : ingestor.Accepts topic (some bytes) event) {data : Value}
    (loaded : loads ingestor.limits bytes = .ok data) : ingestor.modelValidate topic data = .ok event := by
  simp only [Accepts, validate, loaded, Except.ok.injEq] at accepts
  cases parsed : ingestor.modelValidate topic data with
  | ok read => rw [parsed] at accepts; cases accepts; rfl
  | error count => rw [parsed] at accepts; cases accepts

theorem Ingestor.Accepts.featureEvent {ingestor : Ingestor} {topic : String} {bytes : Bytes} {event : FeatureEvent}
    (accepts : ingestor.Accepts topic (some bytes) (.feature event)) {data : Value}
    (loaded : loads ingestor.limits bytes = .ok data) : ingestor.pydantic.featureEvent data = .ok event := by
  have validated := accepts.modelValidate loaded
  rw [Ingestor.modelValidate, if_pos (accepts.class_of_topic.mp ⟨event, rfl⟩)] at validated
  cases parsed : ingestor.pydantic.featureEvent data with
  | ok read => rw [parsed] at validated; cases validated; rfl
  | error count => rw [parsed] at validated; cases validated

theorem Ingestor.Accepts.labelEvent {ingestor : Ingestor} {topic : String} {bytes : Bytes} {event : LabelEvent}
    (accepts : ingestor.Accepts topic (some bytes) (.label event)) {data : Value}
    (loaded : loads ingestor.limits bytes = .ok data) : ingestor.pydantic.labelEvent data = .ok event := by
  have validated := accepts.modelValidate loaded
  have notFeatures : topic ≠ ingestor.settings.featuresTopic := fun features => by
    obtain ⟨_, impossible⟩ := accepts.class_of_topic.mpr features
    cases impossible
  rw [Ingestor.modelValidate, if_neg notFeatures] at validated
  cases parsed : ingestor.pydantic.labelEvent data with
  | ok read => rw [parsed] at validated; cases validated; rfl
  | error count => rw [parsed] at validated; cases validated

end Amel
