import Amel.Python.Codec

namespace Amel

open Python (Text text)

/-- A double by its bits. -/
abbrev Float64 := BitVec 64

/-- The quiet NaN that a missing value becomes in a float column. -/
def Float64.nan : Float64 := 0x7FF8000000000000

/-- A parsed `datetime`: its wall-clock reading, and its UTC offset unless it
is naive. Times are microseconds since 1970-01-01; those in the tables and
in the batch pipeline are naive UTC. -/
structure Datetime where
  wall : Int
  utcoffset : Option Int
  deriving DecidableEq, Repr

def featureSchemaVersion : String := "1.0.0"

def labelSchemaVersion : String := "1.0.0"

def higgsFeatureNames : List String :=
  ["lepton_pt", "lepton_eta", "lepton_phi", "missing_energy_magnitude", "missing_energy_phi",
    "jet1_pt", "jet1_eta", "jet1_phi", "jet1_b_tag", "jet2_pt", "jet2_eta", "jet2_phi", "jet2_b_tag",
    "jet3_pt", "jet3_eta", "jet3_phi", "jet3_b_tag", "jet4_pt", "jet4_eta", "jet4_phi", "jet4_b_tag",
    "m_jj", "m_jjj", "m_lv", "m_jlv", "m_bb", "m_wbb", "m_wwbb"]

/-- A `dict[str, float]` in its iteration order. -/
abbrev Features := List (String × Float64)

/-- The texts of an event are what its message held, lone surrogates included. -/
structure FeatureEvent where
  eventId : Text
  entityId : Text
  eventTimestamp : Datetime
  schemaVersion : Text := text featureSchemaVersion
  source : Text := text "source_simulator"
  features : Features
  traceId : Text
  deriving DecidableEq, Repr

structure LabelEvent where
  eventId : Text
  entityId : Text
  target : Int
  labelTimestamp : Datetime
  schemaVersion : Text := text labelSchemaVersion
  deriving DecidableEq, Repr

end Amel
