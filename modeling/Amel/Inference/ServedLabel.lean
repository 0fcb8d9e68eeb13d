import Amel.Inference.OneModel
import Amel.Library.Job
import Amel.Python.Repr
import Amel.Training.Run

namespace Amel

open Python (Double binary64)

def half : Double := 0x3FE0000000000000

/-- What `predict_proba` gives for one row and the classes 0 and 1: neither
is negative, and together they are one up to the rounding of each. -/
structure Probabilities where
  zero : Double
  one : Double
  valid : zero.isFinite = true ∧ zero.negative = false ∧ one.isFinite = true ∧ one.negative = false
  atLeast : 2 ^ 1074 ≤ binary64.decode zero.magnitude + binary64.decode one.magnitude + 2 ^ 1021
  atMost : binary64.decode zero.magnitude + binary64.decode one.magnitude ≤ 2 ^ 1074 + 2 ^ 1021

/-- A fitted classifier of two classes, by what it makes of each row. -/
abbrev BinaryClassifier := FeatureVector → Probabilities

namespace Probabilities

/-- `predict`: the class of the largest probability, the first one on a tie. -/
def predict (p : Probabilities) : Int := if p.zero.lt p.one then 1 else 0

/-- Neither class is the likelier: one has half, and zero has no less. -/
def Tied (p : Probabilities) : Prop := p.one = half ∧ p.zero.ge half = true

variable (p : Probabilities)

theorem not_nan {x : Double} (finite : x.isFinite = true) : x.isNaN = false :=
  decide_eq_false (Nat.not_lt.mpr (of_decide_eq_true finite).le)

theorem rank_eq {x : Double} (positive : x.negative = false) : x.rank = x.magnitude := by
  rw [Double.rank, positive]
  rfl

theorem lt_iff : p.zero.lt p.one = true ↔ p.zero.magnitude < p.one.magnitude := by
  obtain ⟨finite, positive, finite', positive'⟩ := p.valid
  simp [Double.lt, not_nan finite, not_nan finite', rank_eq positive, rank_eq positive']

theorem ge_half_iff {x : Double} (finite : x.isFinite = true) (positive : x.negative = false) :
    x.ge half = true ↔ half.magnitude ≤ x.magnitude := by
  have halfRank : half.rank = half.magnitude := by decide
  have halfNumber : half.isNaN = false := by decide
  simp [Double.ge, not_nan finite, halfNumber, rank_eq positive, halfRank]

theorem decode_below_half : binary64.decode (half.magnitude - 1) + 2 ^ 1020 = 2 ^ 1073 := by decide +kernel

theorem decode_above_half : binary64.decode (half.magnitude + 1) = 2 ^ 1073 + 2 ^ 1021 := by decide +kernel

theorem zero_le_of_one_lt (less : p.one.magnitude < half.magnitude) : p.one.magnitude ≤ p.zero.magnitude := by
  by_contra more
  have first := Double.decode_strictMono (Nat.not_le.mp more)
  have second := Double.decode_strictMono.monotone (show p.one.magnitude ≤ half.magnitude - 1 by omega)
  have sum := p.atLeast
  have edge := decode_below_half
  omega

theorem zero_lt_of_lt_one (more : half.magnitude < p.one.magnitude) : p.zero.magnitude < p.one.magnitude := by
  by_contra less
  have first := Double.decode_strictMono.monotone (Nat.not_lt.mp less)
  have second := Double.decode_strictMono.monotone (show half.magnitude + 1 ≤ p.one.magnitude by omega)
  have sum := p.atMost
  rw [decode_above_half] at second
  omega

theorem one_eq_half (same : p.one.magnitude = half.magnitude) : p.one = half := by
  rw [← Double.ofBits_negative_magnitude p.one, p.valid.2.2.2, same]
  decide

/-- The threshold and the largest probability give one label, but on a tie. -/
theorem labelOf_eq_predict_iff : labelOf p.one = p.predict ↔ ¬p.Tied := by
  have label : labelOf p.one = if p.one.ge half then 1 else 0 := rfl
  have above := ge_half_iff p.valid.2.2.1 p.valid.2.2.2
  have zeroAbove := ge_half_iff p.valid.1 p.valid.2.1
  rw [label, predict, Tied]
  rcases Nat.lt_trichotomy p.one.magnitude half.magnitude with less | same | more
  · have least := p.zero_le_of_one_lt less
    have different : p.one ≠ half := fun equal => by
      rw [equal] at less
      exact lt_irrefl _ less
    rw [if_neg (by rw [above]; omega), if_neg (by rw [p.lt_iff]; omega)]
    exact iff_of_true rfl fun tied => different tied.1
  · have equal := p.one_eq_half same
    rw [if_pos (above.mpr same.ge), zeroAbove]
    by_cases low : p.zero.magnitude < p.one.magnitude
    · rw [if_pos (p.lt_iff.mpr low)]
      exact iff_of_true rfl fun tied => by omega
    · rw [if_neg (fun less => low (p.lt_iff.mp less))]
      exact iff_of_false (by decide) fun untied => untied ⟨equal, by omega⟩
  · have least := p.zero_lt_of_lt_one more
    have different : p.one ≠ half := fun equal => by
      rw [equal] at more
      exact lt_irrefl _ more
    rw [if_pos (above.mpr more.le), if_pos (p.lt_iff.mpr least)]
    exact iff_of_true rfl fun tied => different tied.1

/-- A share of a whole is a probability. -/
theorem share_valid {part whole : Nat} (positive : 0 < whole) (within : part ≤ whole) :
    let p := Double.ofRatio part whole
    p.magnitude = binary64.encode (part * 2 ^ 1074) whole ∧ p.isFinite = true ∧ p.negative = false := by
  intro p
  have near := (Double.share_near positive within).2
  have most : binary64.decode (binary64.encode (part * 2 ^ 1074) whole) * whole ≤ (2 ^ 1074 + 2 ^ 1020) * whole := by
    have less := Nat.mul_le_mul_right (2 ^ 1074) within
    rw [Nat.add_mul, Nat.mul_comm (2 ^ 1074), Nat.mul_comm (2 ^ 1020)]
    omega
  have large : 2 ^ 1074 + 2 ^ 1020 < binary64.decode binary64.infinity := by decide +kernel
  have finite : binary64.encode (part * 2 ^ 1074) whole < binary64.infinity :=
    Double.decode_strictMono.lt_iff_lt.mp ((Nat.le_of_mul_le_mul_right most positive).trans_lt large)
  have small : binary64.encode (part * 2 ^ 1074) whole < 2 ^ 63 := finite.trans (by decide)
  have bits : p = Double.ofBits false (binary64.encode (part * 2 ^ 1074) whole) := Double.ofRatio_natCast part whole
  have size := Double.magnitude_ofBits false small
  rw [bits]
  exact ⟨size, decide_eq_true (size.trans_lt finite), Double.negative_ofBits small⟩

/-- Two shares that make up a whole. -/
theorem shares_sum {zeros ones : Nat} (positive : 0 < zeros + ones) :
    let units (part : Nat) := binary64.decode (Double.ofRatio part (zeros + ones : Nat)).magnitude
    2 ^ 1074 ≤ units zeros + units ones + 2 ^ 1021 ∧ units zeros + units ones ≤ 2 ^ 1074 + 2 ^ 1021 := by
  intro units
  have zeroNear := Double.share_near positive (Nat.le_add_right zeros ones)
  have oneNear := Double.share_near positive (Nat.le_add_left ones zeros)
  rw [← (share_valid positive (Nat.le_add_right zeros ones)).1] at zeroNear
  rw [← (share_valid positive (Nat.le_add_left ones zeros)).1] at oneNear
  change _ ≤ units zeros * _ + _ ∧ units zeros * _ ≤ _ at zeroNear
  change _ ≤ units ones * _ + _ ∧ units ones * _ ≤ _ at oneNear
  have double : 2 ^ 1021 = 2 ^ 1020 + 2 ^ 1020 := by decide +kernel
  have whole : zeros * 2 ^ 1074 + ones * 2 ^ 1074 = (zeros + ones) * 2 ^ 1074 := (Nat.add_mul ..).symm
  rw [double]
  constructor
  · refine Nat.le_of_mul_le_mul_left ?_ positive
    rw [← whole, Nat.mul_add, Nat.mul_add, Nat.mul_add, Nat.mul_comm _ (units zeros), Nat.mul_comm _ (units ones)]
    omega
  · refine Nat.le_of_mul_le_mul_left ?_ positive
    rw [Nat.mul_add, Nat.mul_add, Nat.mul_add, ← whole, Nat.mul_comm _ (units zeros), Nat.mul_comm _ (units ones)]
    omega

/-- The probabilities in a leaf of a decision tree, from the rows of each class in it. -/
def ofCounts (zeros ones : Nat) (positive : 0 < zeros + ones) : Probabilities where
  zero := .ofRatio zeros (zeros + ones : Nat)
  one := .ofRatio ones (zeros + ones : Nat)
  valid := ⟨(share_valid positive (Nat.le_add_right zeros ones)).2.1,
    (share_valid positive (Nat.le_add_right zeros ones)).2.2, (share_valid positive (Nat.le_add_left ones zeros)).2⟩
  atLeast := (shares_sum positive).1
  atMost := (shares_sum positive).2

end Probabilities

namespace BinaryClassifier

variable (classifier : BinaryClassifier)

def predict (x : FeatureVector) : Int := (classifier x).predict

/-- The classifier as the cache holds it. -/
def loaded (metadata : ModelMetadata) : LoadedModel := ⟨fun x => some (classifier x).one, metadata⟩

/-- Where scikit-learn predicts what the classifier does, the accuracy of an
evaluation is that of the labels of `predict`. -/
theorem accuracy_evaluated {Model : Type} {libraries : Libraries Model} {model : Model} {name : String}
    {x : List FeatureVector} {y : List Int} {metrics : Metrics} {cm : Confusion}
    (predicts : libraries.predict model x = .ok (x.map classifier.predict))
    (evaluated : evaluatePart libraries model name x y = .ok (metrics, cm)) :
    ∃ accuracy, libraries.accuracyScore y (x.map classifier.predict) = .ok accuracy ∧
      metrics.lookup (name ++ "_" ++ "accuracy") = some accuracy := by
  simp only [evaluatePart, computeMetrics, Except.bind_eq_ok, Except.pure_eq_ok] at evaluated
  obtain ⟨pred, predicted, _, -, _, -, _, ⟨accuracy, scored, _, -, _, -, _, -, _, -, _, -, rfl⟩, _, -, same⟩ := evaluated
  cases same
  rw [predicts] at predicted
  cases predicted
  exact ⟨accuracy, scored, by rw [List.map_cons, List.lookup_cons, BEq.rfl]⟩

/-- **The served label.** A prediction returns and stores the label that
`predict` gives for its vector exactly if the two classes are not tied there. -/
theorem served_label_iff {service : PredictionService} {metadata : ModelMetadata} {features : Features}
    {entityId : Option String} {source traceId : String} {started : Double}
    {past : List (Program.Exchange ServiceReply)} {result : PredictionResult} {x : FeatureVector}
    (ends : (Amel.predict service features entityId source traceId started).Ends past (.ok result))
    (read : some (classifier.loaded metadata) ∈ modelsRead past) (framed : frame features = some x) :
    (result.prediction = classifier.predict x ∧
      ∀ row saved, (row, saved) ∈ inserts past → row.prediction = classifier.predict x) ↔ ¬(classifier x).Tied := by
  obtain ⟨parts, ⟨same, -⟩, delivered⟩ := ends.obeys
    (predict_obeys features entityId source traceId started ⟨rfl, rfl, rfl⟩)
  rw [delivered.read, List.mem_singleton, Option.some_inj] at read
  have proba := delivered.proba
  rw [same, ← read, LoadedModel.proba, framed] at proba
  have proba : (classifier x).one = parts.proba := Option.some.inj proba
  have returned : result.prediction = labelOf parts.proba := by
    rw [delivered.result]
    rfl
  have stored : ∀ row saved, (row, saved) ∈ inserts past → row.prediction = labelOf parts.proba := by
    intro row saved member
    rw [delivered.rows] at member
    split at member
    · obtain ⟨rfl, -⟩ := Prod.mk.inj (List.mem_singleton.mp member)
      rfl
    · cases member
  rw [← Probabilities.labelOf_eq_predict_iff, proba, returned]
  exact ⟨And.left, fun agrees => ⟨agrees, fun row saved member => (stored row saved member).trans agrees⟩⟩

end BinaryClassifier

/-- One prediction of a service that stores its predictions. -/
def sampleService : PredictionService := ⟨"higgs-classifier", "champion", false, true, false⟩

def sampleMetadata : ModelMetadata := ⟨"higgs-classifier", "champion", "3", none, none, none, none, none, .utc 0⟩

def sampleFeatures : Features := higgsFeatureNames.map fun name => (name, Double.one)

def sampleVector : FeatureVector := higgsFeatureNames.map fun _ => 0x3F800000

/-- A tree of one leaf with these counts. -/
def leafOf (zeros ones : Nat) (positive : 0 < zeros + ones) : BinaryClassifier := fun _ => .ofCounts zeros ones positive

def sampleParts (classifier : BinaryClassifier) : PredictionParts where
  loaded := classifier.loaded sampleMetadata
  features := sampleFeatures
  entityId := none
  source := "raw"
  traceId := "trace"
  proba := (classifier sampleVector).one
  latencyMs := (Double.sub 0 0).mul 0x408F400000000000
  predictionId := "prediction"

def sampleExchanges (classifier : BinaryClassifier) : List (Program.Exchange ServiceReply) :=
  [⟨.readCurrent, some (classifier.loaded sampleMetadata)⟩, ⟨.perfCounter, (0 : Double)⟩, ⟨.uuid4, "prediction"⟩,
    ⟨.insertPrediction (sampleParts classifier).row, (Except.ok () : Except Unit Unit)⟩]

theorem frame_sample : frame sampleFeatures = some sampleVector := by decide +kernel

theorem sample_ends (classifier : BinaryClassifier) :
    (predict sampleService sampleFeatures none "raw" "trace" 0).Ends (sampleExchanges classifier)
      (.ok ((sampleParts classifier).result true)) := by
  have proba : (classifier.loaded sampleMetadata).proba sampleFeatures = some (classifier sampleVector).one := by
    rw [LoadedModel.proba, frame_sample]
    rfl
  refine Program.Ends.of_reply ?_
  change (predictLoaded sampleService (classifier.loaded sampleMetadata) sampleFeatures none "raw" "trace" 0).Ends _ _
  rw [predictLoaded, proba]
  exact Program.Ends.of_reply (Program.Ends.of_reply (Program.Ends.of_reply .start))

theorem sample_labels (classifier : BinaryClassifier) :
    ((sampleParts classifier).result true).prediction = labelOf (classifier sampleVector).one ∧
      (sampleParts classifier).row.prediction = labelOf (classifier sampleVector).one := ⟨rfl, rfl⟩

theorem sample_served_label :
    (((sampleParts (leafOf 1 2 (by decide))).result true).prediction = (leafOf 1 2 (by decide)).predict sampleVector ∧
      ∀ row saved, (row, saved) ∈ inserts (sampleExchanges (leafOf 1 2 (by decide))) →
        row.prediction = (leafOf 1 2 (by decide)).predict sampleVector) ↔
      ¬(leafOf 1 2 (by decide) sampleVector).Tied :=
  BinaryClassifier.served_label_iff (leafOf 1 2 (by decide)) (sample_ends _) (List.mem_singleton.mpr rfl) frame_sample

/-- A leaf with one row of each class is served as 1 and evaluated as 0. -/
theorem tied_leaf_differs :
    let classifier := leafOf 1 1 (by decide)
    let result := (sampleParts classifier).result true
    (predict sampleService sampleFeatures none "raw" "trace" 0).Ends (sampleExchanges classifier) (.ok result) ∧
      modelsRead (sampleExchanges classifier) = [some (classifier.loaded sampleMetadata)] ∧
      frame sampleFeatures = some sampleVector ∧
      result.prediction = 1 ∧ inserts (sampleExchanges classifier) = [((sampleParts classifier).row, true)] ∧
      (sampleParts classifier).row.prediction = 1 ∧ classifier.predict sampleVector = 0 := by
  intro classifier result
  have tied : (classifier sampleVector).one = half ∧ (classifier sampleVector).zero = half := by decide +kernel
  obtain ⟨returned, stored⟩ := sample_labels classifier
  rw [tied.1] at returned stored
  have evaluated : classifier.predict sampleVector = 0 := by
    rw [BinaryClassifier.predict, Probabilities.predict, tied.1, tied.2]
    decide
  exact ⟨sample_ends classifier, rfl, frame_sample, returned, rfl, stored, evaluated⟩

end Amel
