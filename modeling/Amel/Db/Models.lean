import Amel.Common.Events
import Amel.Library.KeyedTable

namespace Amel

/-- `landing.higgs_feature_events`. -/
structure HiggsFeatureEvent where
  eventId : String
  entityId : String
  eventTimestamp : Int
  schemaVersion : String
  source : String
  features : Features
  traceId : String
  kafkaPartition : Nat
  kafkaOffset : Nat
  ingestedAt : Int
  deriving DecidableEq, Repr

/-- `landing.higgs_label_events`. -/
structure HiggsLabelEvent where
  eventId : String
  entityId : String
  target : Int
  labelTimestamp : Int
  schemaVersion : String
  kafkaPartition : Nat
  kafkaOffset : Nat
  ingestedAt : Int
  deriving DecidableEq, Repr

/-- `curated.higgs_features`. -/
structure CuratedHiggsFeature where
  eventId : String
  entityId : String
  eventTimestamp : Int
  schemaVersion : String
  features : Features
  sourceRunId : String
  deriving DecidableEq, Repr

/-- `curated.higgs_labels`. -/
structure CuratedHiggsLabel where
  eventId : String
  entityId : String
  target : Int
  labelTimestamp : Int
  schemaVersion : String
  sourceRunId : String
  deriving DecidableEq, Repr

/-- `curated.training_records`. -/
structure CuratedTrainingRecord where
  entityId : String
  featureEventId : String
  labelEventId : String
  eventTimestamp : Int
  features : Features
  target : Int
  schemaVersion : String
  sourceRunId : String
  deriving DecidableEq, Repr

/-- `control.pipeline_runs`, one row for each run id. -/
structure PipelineRun where
  runId : String
  dagId : String
  status : String
  featuresWatermarkBefore : Option Int := none
  featuresWatermarkAfter : Option Int := none
  labelsWatermarkBefore : Option Int := none
  labelsWatermarkAfter : Option Int := none
  extractedFeatures : Option Nat := none
  extractedLabels : Option Nat := none
  invalidFeatures : Option Nat := none
  invalidLabels : Option Nat := none
  curatedFeaturesUpserted : Option Nat := none
  curatedLabelsUpserted : Option Nat := none
  trainingRecordsNew : Option Nat := none
  bronzeFeaturesKey : Option String := none
  bronzeLabelsKey : Option String := none
  silverFeaturesKey : Option String := none
  silverLabelsKey : Option String := none
  goldTrainingKey : Option String := none
  validationReportKey : Option String := none
  errorMessage : Option String := none
  startedAt : Int
  finishedAt : Option Int := none
  deriving DecidableEq, Repr

/-- The two landing tables. -/
structure Landing where
  features : List HiggsFeatureEvent := []
  labels : List HiggsLabelEvent := []
  deriving DecidableEq, Repr

/-- One transaction of both landing inserts, each `ON CONFLICT (event_id)
DO NOTHING`. -/
def Landing.insert (landing : Landing) (features : List HiggsFeatureEvent) (labels : List HiggsLabelEvent) :
    Landing where
  features := KeyedTable.insertIgnore (·.eventId) landing.features features
  labels := KeyedTable.insertIgnore (·.eventId) landing.labels labels

/-- Committed landing rows stay as they are: a table only grows at its end. -/
def Landing.Extends (before after : Landing) : Prop :=
  before.features <+: after.features ∧ before.labels <+: after.labels

theorem Landing.Extends.refl (landing : Landing) : landing.Extends landing :=
  ⟨List.prefix_rfl, List.prefix_rfl⟩

theorem Landing.Extends.trans {a b c : Landing} (ab : a.Extends b) (bc : b.Extends c) : a.Extends c :=
  ⟨ab.1.trans bc.1, ab.2.trans bc.2⟩

theorem Landing.extends_insert (landing : Landing) (features : List HiggsFeatureEvent)
    (labels : List HiggsLabelEvent) : landing.Extends (landing.insert features labels) :=
  ⟨KeyedTable.insertIgnore_extends _ _ _, KeyedTable.insertIgnore_extends _ _ _⟩

/-- The primary keys: at most one row for an event id in each table. -/
def Landing.Keyed (landing : Landing) : Prop :=
  (landing.features.map (·.eventId)).Nodup ∧ (landing.labels.map (·.eventId)).Nodup

theorem Landing.Keyed.insert {landing : Landing} (keyed : landing.Keyed) (features : List HiggsFeatureEvent)
    (labels : List HiggsLabelEvent) : (landing.insert features labels).Keyed :=
  ⟨KeyedTable.insertIgnore_keys_nodup _ keyed.1 _, KeyedTable.insertIgnore_keys_nodup _ keyed.2 _⟩

end Amel
