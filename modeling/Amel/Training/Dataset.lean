import Mathlib.Algebra.Ring.Int.Defs
import Mathlib.Data.List.Dedup
import Amel.Library.Newest
import Amel.Backfill.Materialize
import Amel.Db.Models
import Amel.Training.Config

namespace Amel

open Python (Double)

/-- `FEATURE_COLUMNS`. -/
def featureColumns : List String := higgsFeatureNames

/-- A row of the entity dataframe. -/
structure EntityRow where
  entityId : String
  eventTimestamp : Int
  target : Int
  deriving DecidableEq, Repr

def CuratedHiggsLabel.toEntity (r : CuratedHiggsLabel) : EntityRow := ⟨r.entityId, r.labelTimestamp, r.target⟩

/-- `WHERE label_timestamp <= :as_of`, if there is an as_of. -/
def eligible (asOf : Option Datetime) (table : List CuratedHiggsLabel) : List CuratedHiggsLabel :=
  table.filter fun r => asOf.all fun t => r.labelTimestamp ≤ t.asUtc

/-- `LIMIT :n`, if `max_rows > 0`. -/
def rowLimit (maxRows : Int) : Option ℕ+ :=
  if positive : 0 < maxRows.toNat then some ⟨maxRows.toNat, positive⟩ else none

/-- `ORDER BY label_timestamp DESC`. Labels of one timestamp come in any order. -/
abbrev LabelOrder := Descending CuratedHiggsLabel.labelTimestamp

/-- The rows of `curated.higgs_labels` that the statement of `load_entity_df`
returns. -/
def queryLabels (order : LabelOrder) (maxRows : Int) (asOf : Option Datetime) (table : List CuratedHiggsLabel) :
    List CuratedHiggsLabel :=
  order.newest (rowLimit maxRows) (eligible asOf table)

def loadEntityDf (order : LabelOrder) (maxRows : Int) (asOf : Option Datetime) (table : List CuratedHiggsLabel) :
    Except String (List EntityRow) :=
  let rows := queryLabels order maxRows asOf table
  if rows.isEmpty then .error "curated.higgs_labels is empty — run the Milestone 2 pipeline first"
  else .ok (rows.map (·.toEntity))

theorem loadEntityDf_eq_ok {order : LabelOrder} {maxRows : Int} {asOf : Option Datetime}
    {table : List CuratedHiggsLabel} {entityDf : List EntityRow} :
    loadEntityDf order maxRows asOf table = .ok entityDf ↔ queryLabels order maxRows asOf table ≠ [] ∧
      entityDf = (queryLabels order maxRows asOf table).map (·.toEntity) := by
  simp only [loadEntityDf, List.isEmpty_iff]
  split
  · rename_i nothing
    simp [nothing]
  · rename_i found
    simp [found, eq_comm]

/-- A row of the frame that the historical join returns. -/
structure TrainingRow where
  entityId : String
  eventTimestamp : Int
  target : Int
  features : Features
  deriving DecidableEq, Repr

/-- The value in a feature column. -/
def TrainingRow.value (row : TrainingRow) (column : String) : Double := (row.features.lookup column).getD .nan

/-- The frame, with the names of its feature columns. Beside them it has those
of the entity dataframe. -/
structure TrainingFrame where
  columns : List String
  rows : List TrainingRow
  aligned : ∀ row ∈ rows, row.features.map Prod.fst = columns

namespace TrainingFrame

/-- The columns of `names` that the frame does not have. -/
def missing (df : TrainingFrame) (names : List String) : List String := names.filter (· ∉ df.columns)

/-- `df.dropna(subset=names)`. -/
def dropna (df : TrainingFrame) (names : List String) : Except String TrainingFrame :=
  if df.missing names = [] then
    .ok { df with
      rows := df.rows.filter fun row => names.all fun name => !(row.value name).isNaN
      aligned := fun row member => df.aligned row (List.mem_of_mem_filter member) }
  else .error "KeyError"

/-- `.astype("int8")` of the target, which keeps the low byte. -/
def int8Target (df : TrainingFrame) : TrainingFrame where
  columns := df.columns
  rows := df.rows.map fun row => { row with target := row.target.bmod 256 }
  aligned row member := by
    obtain ⟨before, present, rfl⟩ := List.mem_map.mp member
    exact df.aligned before present

/-- `df["target"].mean()`. -/
def meanTarget (df : TrainingFrame) : Double :=
  if df.rows.isEmpty then .nan else .ofRatio (df.rows.map (·.target)).sum df.rows.length

end TrainingFrame

/-- A Feast store that has been opened. -/
structure FeatureStore where
  versionTag : String → Except String (Option String)
  historicalFeatures : List EntityRow → List String → Except String TrainingFrame

def featureViewVersion (store : FeatureStore) (name : String) : Except String String :=
  (·.getD "unversioned") <$> store.versionTag name

/-- Labels without a point-in-time match for their features are dropped. -/
def loadTrainingFrame (order : LabelOrder) (table : List CuratedHiggsLabel) (cfg : TrainingConfig)
    (store : FeatureStore) : Except String TrainingFrame := do
  let entityDf ← loadEntityDf order cfg.maxRows cfg.asOf table
  let df ← store.historicalFeatures entityDf (featureColumns.map fun name => cfg.featureView ++ ":" ++ name)
  let matched ← df.dropna featureColumns
  return matched.int8Target

structure DatasetVersion where
  fingerprint : String
  nRows : Nat
  nEntities : Nat
  minEventTimestamp : Option Int
  maxEventTimestamp : Option Int
  maxEntityId : Option String
  positiveFraction : Double
  featureView : String
  featureViewVersion : String
  deriving DecidableEq, Repr

def TrainingRow.toEntity (row : TrainingRow) : EntityRow := ⟨row.entityId, row.eventTimestamp, row.target⟩

/-- `rowHashes` is the digest of `hash_pandas_object` over the keyed rows. -/
def datasetVersion (rowHashes : List EntityRow → String) (df : TrainingFrame) (featureView featureViewVersion : String) :
    DatasetVersion where
  fingerprint := rowHashes ((df.rows.map (·.toEntity)).insertionSort fun a b =>
    a.entityId < b.entityId ∨ a.entityId = b.entityId ∧ a.eventTimestamp ≤ b.eventTimestamp)
  nRows := df.rows.length
  nEntities := (df.rows.map (·.entityId)).dedup.length
  minEventTimestamp := (df.rows.map (·.eventTimestamp)).min?
  maxEventTimestamp := (df.rows.map (·.eventTimestamp)).max?
  maxEntityId := (df.rows.map (·.entityId)).foldl
    (fun greatest id => if greatest.all (· < id) then some id else greatest) none
  positiveFraction := if df.rows.isEmpty then 0 else df.meanTarget
  featureView
  featureViewVersion

/-- The 28 values of a row, as `float32` bits. -/
abbrev FeatureVector := List (BitVec 32)

/-- The features and the labels of some rows. -/
structure Sample where
  x : List FeatureVector
  y : List Int
  aligned : x.length = y.length

structure Splits where
  train : Sample
  validation : Sample
  test : Sample

structure SplitSizes where
  train : Nat
  validation : Nat
  test : Nat
  deriving DecidableEq, Repr

def Splits.sizes (splits : Splits) : SplitSizes :=
  ⟨splits.train.x.length, splits.validation.x.length, splits.test.x.length⟩

/-- `X = df[FEATURE_COLUMNS].astype("float32")` and `y = df["target"]`. -/
def TrainingFrame.sample (df : TrainingFrame) : Except String Sample :=
  if df.missing featureColumns = [] then
    .ok {
      x := df.rows.map fun row => featureColumns.map fun name => (row.value name).toSingle
      y := df.rows.map (·.target)
      aligned := by simp }
  else .error "KeyError"

def Sample.take (sample : Sample) (positions : List (Fin sample.y.length)) : Sample where
  x := positions.map fun i => sample.x.get (i.cast sample.aligned.symm)
  y := positions.map sample.y.get
  aligned := by simp

/-- The positions of the two parts that `train_test_split` stratifies by the
labels, for a `test_size` and a `random_state`. -/
abbrev TrainTestSplit :=
  (y : List Int) → Double → Int → Except String (List (Fin y.length) × List (Fin y.length))

/-- `train_test_split(X, y, test_size=..., random_state=..., stratify=y)`. -/
def TrainTestSplit.parts (trainTestSplit : TrainTestSplit) (sample : Sample) (testSize : Double) (randomState : Int) :
    Except String (Sample × Sample) := do
  let (rest, test) ← trainTestSplit sample.y testSize randomState
  return (sample.take rest, sample.take test)

def splitFrame (trainTestSplit : TrainTestSplit) (df : TrainingFrame) (seed : Int)
    (validationFraction testFraction : Double) : Except String Splits := do
  let held := validationFraction.add testFraction
  if !(Double.lt 0 held && held.lt .one) then
    throw "validation_fraction + test_fraction must be in (0, 1)"
  let whole ← df.sample
  let (rest, test) ← trainTestSplit.parts whole testFraction seed
  let valShareOfRest ← (validationFraction.div (Double.one.sub testFraction)).elim
    (.error "float division by zero") Except.ok
  let (train, validation) ← trainTestSplit.parts rest valShareOfRest seed
  return { train, validation, test }

end Amel
