import Amel.Training.Promote

namespace Amel

open Python (Double)

/-- What the gate is to decide: both metrics there, both floors reached, and
the champion, if there is one, not missed by more than is tolerated. -/
def PromotionCriteria.Specified (criteria : PromotionCriteria) (candidate : Metrics) (champion : Option Metrics) :
    Prop :=
  ∃ acc auc, candidate.lookup "test_accuracy" = some acc ∧ candidate.lookup "test_roc_auc" = some auc ∧
    acc.ge criteria.minTestAccuracy = true ∧ auc.ge criteria.minTestRocAuc = true ∧
    ∀ metrics, champion = some metrics →
      acc.ge (((metrics.lookup "test_accuracy").getD 0).sub criteria.maxRegression) = true

/-- The entry that says a floor is missed. -/
def floorEntry (metric : String) (value floor : Double) : String :=
  s!"{metric} {value.fixed 4} < floor {floor.repr}"

/-- The entry that says the champion is missed. -/
def regressionEntry (acc champAcc maxRegression : Double) : String :=
  s!"test_accuracy {acc.fixed 4} regresses champion {champAcc.fixed 4} by more than {maxRegression.repr}"

/-- Every check that the gate makes and the metrics fail has its entry. The
floors are looked at only where both metrics are there. -/
structure FailuresNamed (reasons : List String) (candidate : Metrics) (champion : Option Metrics)
    (criteria : PromotionCriteria) : Prop where
  missing : candidate.lookup "test_accuracy" = none ∨ candidate.lookup "test_roc_auc" = none →
    "candidate is missing test_accuracy/test_roc_auc" ∈ reasons
  accuracy : ∀ acc auc, candidate.lookup "test_accuracy" = some acc → candidate.lookup "test_roc_auc" = some auc →
    acc.ge criteria.minTestAccuracy = false → floorEntry "test_accuracy" acc criteria.minTestAccuracy ∈ reasons
  rocAuc : ∀ acc auc, candidate.lookup "test_accuracy" = some acc → candidate.lookup "test_roc_auc" = some auc →
    auc.ge criteria.minTestRocAuc = false → floorEntry "test_roc_auc" auc criteria.minTestRocAuc ∈ reasons
  regression : ∀ acc auc metrics, candidate.lookup "test_accuracy" = some acc →
    candidate.lookup "test_roc_auc" = some auc → champion = some metrics →
    acc.ge (((metrics.lookup "test_accuracy").getD 0).sub criteria.maxRegression) = false →
    regressionEntry acc ((metrics.lookup "test_accuracy").getD 0) criteria.maxRegression ∈ reasons

/-- The gate decides as specified and accounts for every refusal. -/
def DecidesExactly (candidate : Metrics) (champion : Option Metrics) (criteria : PromotionCriteria) : Prop :=
  let decision := evaluatePromotion candidate champion criteria
  (decision.approved = true ↔ criteria.Specified candidate champion) ∧
    (decision.approved = false → FailuresNamed decision.reasons candidate champion criteria)

/-- A difference that is not NaN: neither side is, nor are both the same infinity. -/
def Subtractable (x y : Double) : Prop :=
  x.isNaN = false ∧ y.isNaN = false ∧ ¬(x.isFinite = false ∧ y.isFinite = false ∧ x.negative = y.negative)

/-- Where both metrics are there, nothing that is compared is NaN. -/
def Comparable (candidate : Metrics) (champion : Option Metrics) (criteria : PromotionCriteria) : Prop :=
  ∀ acc auc, candidate.lookup "test_accuracy" = some acc → candidate.lookup "test_roc_auc" = some auc →
    (acc.isNaN = false ∧ criteria.minTestAccuracy.isNaN = false) ∧
      (auc.isNaN = false ∧ criteria.minTestRocAuc.isNaN = false) ∧
      ∀ metrics, champion = some metrics →
        Subtractable ((metrics.lookup "test_accuracy").getD 0) criteria.maxRegression

theorem subtractable_iff {x y : Double} : Subtractable x y ↔ (x.sub y).isNaN = false := by
  rw [← Bool.not_eq_true, Double.sub_isNaN_iff, Subtractable]
  simp only [not_or, Bool.not_eq_true]

theorem checkFloor_fst (metric : String) (value floor : Double) :
    (checkFloor metric value floor).1 = !value.lt floor := by
  unfold checkFloor
  split
  · rename_i below
    rw [below]
    rfl
  · rename_i above
    rw [Bool.of_not_eq_true above]
    rfl

/-- The entry of a floor is the one that says it is missed only where it is. -/
theorem floorEntry_eq_iff (metric : String) (value floor : Double) :
    floorEntry metric value floor = (checkFloor metric value floor).2 ↔ value.lt floor = true := by
  unfold checkFloor floorEntry
  split
  · rename_i below
    exact iff_of_true rfl below
  · rename_i above
    refine iff_of_false (fun same => ?_) above
    have texts := congrArg String.toList same
    simp [toString] at texts

theorem checkRegression_fst (acc : Double) (metrics : Metrics) (maxRegression : Double) :
    (checkRegression acc (some metrics) maxRegression).1 =
      !acc.lt (((metrics.lookup "test_accuracy").getD 0).sub maxRegression) := by
  unfold checkRegression
  dsimp only
  split
  · rename_i below
    rw [below]
    rfl
  · rename_i above
    rw [Bool.of_not_eq_true above]
    rfl

theorem regressionEntry_eq_iff (acc : Double) (metrics : Metrics) (maxRegression : Double) :
    regressionEntry acc ((metrics.lookup "test_accuracy").getD 0) maxRegression =
        (checkRegression acc (some metrics) maxRegression).2 ↔
      acc.lt (((metrics.lookup "test_accuracy").getD 0).sub maxRegression) = true := by
  unfold checkRegression regressionEntry
  dsimp only
  split
  · rename_i below
    exact iff_of_true rfl below
  · rename_i above
    refine iff_of_false (fun same => ?_) above
    have texts := congrArg String.toList same
    simp [toString] at texts

/-- The entries of the floors of two metrics differ. -/
theorem floorEntry_ne_checkFloor {metric other : String} (differ : ∀ rest rest' : List Char,
    metric.toList ++ ' ' :: rest ≠ other.toList ++ ' ' :: rest') (value floor value' floor' : Double) :
    floorEntry metric value floor ≠ (checkFloor other value' floor').2 := by
  intro same
  have texts := congrArg String.toList same
  unfold checkFloor floorEntry at texts
  split at texts
  · simp only [String.toList_append, toString, List.append_assoc] at texts
    exact differ _ _ texts
  · simp only [String.toList_append, toString, List.append_assoc] at texts
    exact differ _ _ texts

theorem floorEntry_ne_checkRegression (acc value floor : Double) (champion : Option Metrics) (maxRegression : Double)
    {metric : String} (measured : metric = "test_accuracy" ∧ value = acc ∨ metric = "test_roc_auc") :
    floorEntry metric value floor ≠ (checkRegression acc champion maxRegression).2 := by
  intro same
  have texts := congrArg String.toList same
  unfold checkRegression floorEntry at texts
  rcases measured with ⟨rfl, rfl⟩ | rfl
  · split at texts
    · simp [toString] at texts
    · dsimp only at texts
      split at texts
      · simp [toString] at texts
      · simp [toString] at texts
  · split at texts
    · simp [toString] at texts
    · dsimp only at texts
      split at texts
      · simp [toString] at texts
      · simp [toString] at texts

theorem regressionEntry_ne_checkFloor (acc champAcc maxRegression value floor : Double) (metric : String)
    (measured : metric = "test_accuracy" ∧ value = acc ∨ metric = "test_roc_auc") :
    regressionEntry acc champAcc maxRegression ≠ (checkFloor metric value floor).2 := by
  intro same
  have texts := congrArg String.toList same
  unfold checkFloor regressionEntry at texts
  rcases measured with ⟨rfl, rfl⟩ | rfl
  · split at texts
    · simp [toString] at texts
    · simp [toString] at texts
  · split at texts
    · simp [toString] at texts
    · simp [toString] at texts

variable {candidate : Metrics} {champion : Option Metrics} {criteria : PromotionCriteria} {acc auc : Double}

theorem evaluatePromotion_present (hasAcc : candidate.lookup "test_accuracy" = some acc)
    (hasAuc : candidate.lookup "test_roc_auc" = some auc) :
    (evaluatePromotion candidate champion criteria).approved =
        ((checkFloor "test_accuracy" acc criteria.minTestAccuracy).1 &&
          (checkFloor "test_roc_auc" auc criteria.minTestRocAuc).1 &&
          (checkRegression acc champion criteria.maxRegression).1) ∧
      (evaluatePromotion candidate champion criteria).reasons =
        [(checkFloor "test_accuracy" acc criteria.minTestAccuracy).2,
          (checkFloor "test_roc_auc" auc criteria.minTestRocAuc).2,
          (checkRegression acc champion criteria.maxRegression).2] := by
  simp only [evaluatePromotion, hasAcc, hasAuc, and_self]

/-- The entry of a floor is there only where that floor is missed. -/
theorem floorEntry_mem_iff (hasAcc : candidate.lookup "test_accuracy" = some acc)
    (hasAuc : candidate.lookup "test_roc_auc" = some auc) {metric : String} {value floor : Double}
    (compared : metric = "test_accuracy" ∧ value = acc ∧ floor = criteria.minTestAccuracy ∨
      metric = "test_roc_auc" ∧ value = auc ∧ floor = criteria.minTestRocAuc) :
    floorEntry metric value floor ∈ (evaluatePromotion candidate champion criteria).reasons ↔ value.lt floor = true := by
  have last := floorEntry_ne_checkRegression acc value floor champion criteria.maxRegression
    (compared.imp (fun accuracy => ⟨accuracy.1, accuracy.2.1⟩) And.left)
  rw [(evaluatePromotion_present hasAcc hasAuc).2, List.mem_cons, List.mem_cons, List.mem_singleton]
  rcases compared with ⟨rfl, rfl, rfl⟩ | ⟨rfl, rfl, rfl⟩
  · have other := @floorEntry_ne_checkFloor "test_accuracy" "test_roc_auc" (by simp) value criteria.minTestAccuracy auc
      criteria.minTestRocAuc
    simp only [floorEntry_eq_iff, other, last, or_self, or_false]
  · have other := @floorEntry_ne_checkFloor "test_roc_auc" "test_accuracy" (by simp) value criteria.minTestRocAuc acc
      criteria.minTestAccuracy
    simp only [floorEntry_eq_iff, other, last, or_false, false_or]

theorem regressionEntry_mem_iff {metrics : Metrics} (hasAcc : candidate.lookup "test_accuracy" = some acc)
    (hasAuc : candidate.lookup "test_roc_auc" = some auc) :
    regressionEntry acc ((metrics.lookup "test_accuracy").getD 0) criteria.maxRegression ∈
        (evaluatePromotion candidate (some metrics) criteria).reasons ↔
      acc.lt (((metrics.lookup "test_accuracy").getD 0).sub criteria.maxRegression) = true := by
  rw [(evaluatePromotion_present hasAcc hasAuc).2, List.mem_cons, List.mem_cons, List.mem_singleton,
    regressionEntry_eq_iff]
  have first := regressionEntry_ne_checkFloor acc ((metrics.lookup "test_accuracy").getD 0) criteria.maxRegression
    acc criteria.minTestAccuracy "test_accuracy" (Or.inl ⟨rfl, rfl⟩)
  have second := regressionEntry_ne_checkFloor acc ((metrics.lookup "test_accuracy").getD 0) criteria.maxRegression
    auc criteria.minTestRocAuc "test_roc_auc" (Or.inr rfl)
  simp only [first, second, false_or]

/-- The entries name exactly the checks whose comparison by `<` succeeds. -/
theorem failuresNamed_iff (hasAcc : candidate.lookup "test_accuracy" = some acc)
    (hasAuc : candidate.lookup "test_roc_auc" = some auc) :
    FailuresNamed (evaluatePromotion candidate champion criteria).reasons candidate champion criteria ↔
      (acc.ge criteria.minTestAccuracy = false → acc.lt criteria.minTestAccuracy = true) ∧
        (auc.ge criteria.minTestRocAuc = false → auc.lt criteria.minTestRocAuc = true) ∧
        ∀ metrics, champion = some metrics →
          acc.ge (((metrics.lookup "test_accuracy").getD 0).sub criteria.maxRegression) = false →
            acc.lt (((metrics.lookup "test_accuracy").getD 0).sub criteria.maxRegression) = true := by
  constructor
  · intro named
    refine ⟨fun fails => ?_, fun fails => ?_, fun metrics crowned fails => ?_⟩
    · exact (floorEntry_mem_iff hasAcc hasAuc (Or.inl ⟨rfl, rfl, rfl⟩)).mp (named.accuracy acc auc hasAcc hasAuc fails)
    · exact (floorEntry_mem_iff hasAcc hasAuc (Or.inr ⟨rfl, rfl, rfl⟩)).mp (named.rocAuc acc auc hasAcc hasAuc fails)
    · subst crowned
      exact (regressionEntry_mem_iff hasAcc hasAuc).mp (named.regression acc auc metrics hasAcc hasAuc rfl fails)
  · rintro ⟨first, second, third⟩
    refine ⟨?_, ?_, ?_, ?_⟩
    · rw [hasAcc, hasAuc]
      rintro (missing | missing) <;> cases missing
    · intro acc' auc' hasAcc' _ fails
      cases hasAcc.symm.trans hasAcc'
      exact (floorEntry_mem_iff hasAcc hasAuc (Or.inl ⟨rfl, rfl, rfl⟩)).mpr (first fails)
    · intro acc' auc' _ hasAuc' fails
      cases hasAuc.symm.trans hasAuc'
      exact (floorEntry_mem_iff hasAcc hasAuc (Or.inr ⟨rfl, rfl, rfl⟩)).mpr (second fails)
    · intro acc' auc' metrics hasAcc' _ crowned fails
      cases hasAcc.symm.trans hasAcc'
      subst crowned
      exact (regressionEntry_mem_iff hasAcc hasAuc).mpr (third metrics rfl fails)

theorem checkRegression_passes_iff : (checkRegression acc champion criteria.maxRegression).1 = true ↔
    ∀ metrics, champion = some metrics →
      acc.lt (((metrics.lookup "test_accuracy").getD 0).sub criteria.maxRegression) = false := by
  cases champion with
  | none => exact iff_of_true rfl (by rintro _ ⟨⟩)
  | some metrics =>
    rw [checkRegression_fst, Bool.not_eq_true']
    exact ⟨fun passes _ same => Option.some.inj same ▸ passes, fun passes => passes metrics rfl⟩

theorem specified_iff (hasAcc : candidate.lookup "test_accuracy" = some acc)
    (hasAuc : candidate.lookup "test_roc_auc" = some auc) : criteria.Specified candidate champion ↔
      acc.ge criteria.minTestAccuracy = true ∧ auc.ge criteria.minTestRocAuc = true ∧
        ∀ metrics, champion = some metrics →
          acc.ge (((metrics.lookup "test_accuracy").getD 0).sub criteria.maxRegression) = true := by
  constructor
  · rintro ⟨acc', auc', hasAcc', hasAuc', meets⟩
    cases hasAcc.symm.trans hasAcc'
    cases hasAuc.symm.trans hasAuc'
    exact meets
  · exact fun meets => ⟨acc, auc, hasAcc, hasAuc, meets⟩

theorem decidesExactly_of_missing
    (missing : candidate.lookup "test_accuracy" = none ∨ candidate.lookup "test_roc_auc" = none) :
    DecidesExactly candidate champion criteria := by
  have refused : evaluatePromotion candidate champion criteria =
      ⟨false, ["candidate is missing test_accuracy/test_roc_auc"], candidate, champion, criteria⟩ := by
    unfold evaluatePromotion
    split
    · rename_i hasAcc hasAuc
      rw [hasAcc, hasAuc] at missing
      rcases missing with absent | absent <;> cases absent
    · rfl
  have absurdly {acc auc : Double} (hasAcc : candidate.lookup "test_accuracy" = some acc)
      (hasAuc : candidate.lookup "test_roc_auc" = some auc) : False := by
    rw [hasAcc, hasAuc] at missing
    rcases missing with absent | absent <;> cases absent
  rw [DecidesExactly, refused]
  refine ⟨iff_of_false Bool.false_ne_true ?_, fun _ => ⟨fun _ => List.mem_singleton_self _, ?_, ?_, ?_⟩⟩
  · rintro ⟨acc, auc, hasAcc, hasAuc, _⟩
    exact absurdly hasAcc hasAuc
  · exact fun acc auc hasAcc hasAuc => (absurdly hasAcc hasAuc).elim
  · exact fun acc auc hasAcc hasAuc => (absurdly hasAcc hasAuc).elim
  · exact fun acc auc metrics hasAcc hasAuc => (absurdly hasAcc hasAuc).elim

/-- A comparison that an approval vouches for and that a refusal names where
it fails is one between numbers. -/
theorem ordered_of_accounted {approved : Bool} {x y : Double} (vouches : approved = true → x.ge y = true)
    (names : approved = false → x.ge y = false → x.lt y = true) : x.isNaN = false ∧ y.isNaN = false := by
  by_contra unordered
  obtain ⟨notBelow, notAbove⟩ := Double.not_lt_and_not_ge unordered
  cases approved with
  | true => exact Bool.false_ne_true (notAbove.symm.trans (vouches rfl))
  | false => exact Bool.false_ne_true (notBelow.symm.trans (names rfl notAbove))

/-- The gate decides as specified, and names every failed check when it
refuses, exactly where nothing that it compares is NaN. -/
theorem decidesExactly_iff (candidate : Metrics) (champion : Option Metrics) (criteria : PromotionCriteria) :
    DecidesExactly candidate champion criteria ↔ Comparable candidate champion criteria := by
  cases hasAcc : candidate.lookup "test_accuracy" with
  | none =>
    refine iff_of_true (decidesExactly_of_missing (Or.inl hasAcc)) ?_
    intro acc _ hasAcc'
    cases hasAcc.symm.trans hasAcc'
  | some acc =>
    cases hasAuc : candidate.lookup "test_roc_auc" with
    | none =>
      refine iff_of_true (decidesExactly_of_missing (Or.inr hasAuc)) ?_
      intro _ auc _ hasAuc'
      cases hasAuc.symm.trans hasAuc'
    | some auc =>
      have specified := @specified_iff candidate champion criteria acc auc hasAcc hasAuc
      have named := @failuresNamed_iff candidate champion criteria acc auc hasAcc hasAuc
      constructor
      · rintro ⟨decides, accounts⟩ acc' auc' hasAcc' hasAuc'
        cases hasAcc.symm.trans hasAcc'
        cases hasAuc.symm.trans hasAuc'
        refine ⟨?_, ?_, fun metrics crowned => ?_⟩
        · exact ordered_of_accounted (fun yes => (specified.mp (decides.mp yes)).1)
            fun no => (named.mp (accounts no)).1
        · exact ordered_of_accounted (fun yes => (specified.mp (decides.mp yes)).2.1)
            fun no => (named.mp (accounts no)).2.1
        · have ordered := ordered_of_accounted (fun yes => (specified.mp (decides.mp yes)).2.2 metrics crowned)
            fun no => (named.mp (accounts no)).2.2 metrics crowned
          exact subtractable_iff.mpr ordered.2
      · intro comparable
        obtain ⟨accuracy, rocAuc, regression⟩ := comparable acc auc hasAcc hasAuc
        have first := Double.ge_of_not_lt accuracy
        have second := Double.ge_of_not_lt rocAuc
        have third (metrics : Metrics) (crowned : champion = some metrics) :
            acc.ge (((metrics.lookup "test_accuracy").getD 0).sub criteria.maxRegression) =
              !acc.lt (((metrics.lookup "test_accuracy").getD 0).sub criteria.maxRegression) :=
          Double.ge_of_not_lt ⟨accuracy.1, subtractable_iff.mp (regression metrics crowned)⟩
        refine ⟨?_, fun _ => named.mpr ⟨?_, ?_, fun metrics crowned => ?_⟩⟩
        · rw [(evaluatePromotion_present hasAcc hasAuc).1, specified, Bool.and_eq_true, Bool.and_eq_true,
            checkFloor_fst, checkFloor_fst, checkRegression_passes_iff, first, second, and_assoc]
          refine and_congr_right fun _ => and_congr_right fun _ => forall₂_congr fun metrics crowned => ?_
          rw [third metrics crowned, Bool.not_eq_true']
        · rw [first]
          simp
        · rw [second]
          simp
        · rw [third metrics crowned]
          simp

/-- A model whose accuracy is NaN, against the floors of the default configuration. -/
theorem nan_accuracy_approved : ¬∀ candidate champion criteria, DecidesExactly candidate champion criteria := by
  intro decides
  have exactly := (decides [("test_accuracy", Double.nan), ("test_roc_auc", Double.one)] none (.fromConfig {})).1
  obtain ⟨acc, auc, hasAcc, _, reaches, _⟩ := exactly.mp (by decide +kernel)
  obtain rfl : Double.nan = acc := Option.some.inj hasAcc
  exact absurd reaches (by decide +kernel)

end Amel
