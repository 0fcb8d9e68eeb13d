import Mathlib.Data.List.FinRange
import Mathlib.Data.Rat.Floor
import Mathlib.Tactic.Linarith
import Amel.Library.Job
import Amel.Training.Dataset

namespace Amel

open Python (Double)

/-- The arithmetic that the fractions of a split are computed in; dividing
by zero raises. -/
structure Arithmetic (Number : Type) where
  zero : Number
  one : Number
  add : Number → Number → Number
  sub : Number → Number → Number
  lt : Number → Number → Bool
  div : Number → Number → Option Number

def Arithmetic.doubles : Arithmetic Double where
  zero := 0
  one := .one
  add := .add
  sub := .sub
  lt := Double.lt
  div := Double.div

def Arithmetic.rationals : Arithmetic ℚ where
  zero := 0
  one := 1
  add x y := x + y
  sub x y := x - y
  lt x y := x < y
  div x y := if y = 0 then none else some (x / y)

/-- `train_test_split` with a `test_size` of any kind of number. -/
abbrev SplitBy (Number : Type) :=
  (y : List Int) → Number → Int → Except String (List (Fin y.length) × List (Fin y.length))

variable {Number : Type}

def SplitBy.parts (trainTestSplit : SplitBy Number) (sample : Sample) (testSize : Number) (randomState : Int) :
    Except String (Sample × Sample) := do
  let (rest, test) ← trainTestSplit sample.y testSize randomState
  return (sample.take rest, sample.take test)

/-- `split_frame` in any arithmetic. -/
def splitFrameOver (arithmetic : Arithmetic Number) (trainTestSplit : SplitBy Number) (df : TrainingFrame) (seed : Int)
    (validationFraction testFraction : Number) : Except String Splits := do
  let held := arithmetic.add validationFraction testFraction
  if !(arithmetic.lt arithmetic.zero held && arithmetic.lt held arithmetic.one) then
    throw "validation_fraction + test_fraction must be in (0, 1)"
  let whole ← df.sample
  let (rest, test) ← trainTestSplit.parts whole testFraction seed
  let valShareOfRest ← (arithmetic.div validationFraction (arithmetic.sub arithmetic.one testFraction)).elim
    (.error "float division by zero") Except.ok
  let (train, validation) ← trainTestSplit.parts rest valShareOfRest seed
  return { train, validation, test }

theorem splitFrame_eq (trainTestSplit : TrainTestSplit) (df : TrainingFrame) (seed : Int)
    (validationFraction testFraction : Double) : splitFrame trainTestSplit df seed validationFraction testFraction =
      splitFrameOver .doubles trainTestSplit df seed validationFraction testFraction := rfl

namespace Sample

variable (sample : Sample) {positions : List (Fin sample.y.length)}

@[simp] theorem length_take_y : (sample.take positions).y.length = positions.length := by simp [take]

@[simp] theorem length_take_x : (sample.take positions).x.length = positions.length := by simp [take]

/-- Positions in a part, as positions in the whole. -/
def pick (positions : List (Fin sample.y.length)) (inner : List (Fin (sample.take positions).y.length)) :
    List (Fin sample.y.length) :=
  inner.map fun i => positions.get (i.cast sample.length_take_y)

theorem eq_of_parts {one other : Sample} (x : one.x = other.x) (y : one.y = other.y) : one = other := by
  cases one
  cases other
  cases x
  cases y
  rfl

theorem take_take (inner : List (Fin (sample.take positions).y.length)) :
    (sample.take positions).take inner = sample.take (sample.pick positions inner) := by
  refine eq_of_parts ?_ ?_
  · refine (List.map_congr_left fun i _ => ?_).trans List.map_map.symm
    exact List.getElem_map _
  · refine (List.map_congr_left fun i _ => ?_).trans List.map_map.symm
    exact List.getElem_map _

theorem pick_finRange : sample.pick positions (List.finRange _) = positions := by
  have gets {n : Nat} (same : n = positions.length) :
      ((List.finRange n).map fun i => positions.get (i.cast same)) = positions := by
    subst same
    exact List.map_get_finRange positions
  exact gets sample.length_take_y

end Sample

/-- Each position goes to exactly one of the two parts. -/
def SplitBy.Partitions (trainTestSplit : SplitBy Number) : Prop :=
  ∀ y testSize randomState rest test, trainTestSplit y testSize randomState = .ok (rest, test) →
    (rest ++ test).Perm (List.finRange y.length)

/-- The second part has `ceil(test_size * n)` of the `n` positions. -/
def SplitBy.RoundsUp (trainTestSplit : SplitBy ℚ) : Prop :=
  ∀ y testSize randomState rest test, trainTestSplit y testSize randomState = .ok (rest, test) →
    (test.length : ℤ) = ⌈testSize * y.length⌉

/-- The two library calls behind a split that returned, and their arguments. -/
structure SplitRun (arithmetic : Arithmetic Number) (trainTestSplit : SplitBy Number) (df : TrainingFrame) (seed : Int)
    (validationFraction testFraction : Number) (splits : Splits) where
  whole : Sample
  rest : List (Fin whole.y.length)
  test : List (Fin whole.y.length)
  share : Number
  train : List (Fin (whole.take rest).y.length)
  validation : List (Fin (whole.take rest).y.length)
  isWhole : df.sample = .ok whole
  first : trainTestSplit whole.y testFraction seed = .ok (rest, test)
  isShare : arithmetic.div validationFraction (arithmetic.sub arithmetic.one testFraction) = some share
  second : trainTestSplit (whole.take rest).y share seed = .ok (train, validation)
  result : splits = ⟨(whole.take rest).take train, (whole.take rest).take validation, whole.take test⟩

variable {arithmetic : Arithmetic Number} {trainTestSplit : SplitBy Number} {df : TrainingFrame} {seed : Int}
  {validationFraction testFraction : Number} {splits : Splits}

theorem splitFrameOver_run
    (returned : splitFrameOver arithmetic trainTestSplit df seed validationFraction testFraction = .ok splits) :
    Nonempty (SplitRun arithmetic trainTestSplit df seed validationFraction testFraction splits) := by
  unfold splitFrameOver at returned
  dsimp only at returned
  split at returned
  · cases returned
  · simp only [SplitBy.parts, Except.bind_eq_ok, Except.pure_eq_ok] at returned
    obtain ⟨whole, isWhole, _, ⟨⟨rest, test⟩, first, rfl⟩, share, isShare, _,
      ⟨⟨train, validation⟩, second, rfl⟩, rfl⟩ := returned
    cases divided : arithmetic.div validationFraction (arithmetic.sub arithmetic.one testFraction) with
    | none =>
      rw [divided] at isShare
      cases isShare
    | some quotient =>
      rw [divided] at isShare
      cases isShare
      exact ⟨⟨whole, rest, test, share, train, validation, isWhole, first, divided, second, rfl⟩⟩

namespace SplitRun

variable (run : SplitRun arithmetic trainTestSplit df seed validationFraction testFraction splits)

/-- The rows of the frame that training gets, and those that validation gets. -/
def trained : List (Fin run.whole.y.length) := run.whole.pick run.rest run.train

def validated : List (Fin run.whole.y.length) := run.whole.pick run.rest run.validation

theorem parts : splits.train = run.whole.take run.trained ∧ splits.validation = run.whole.take run.validated ∧
    splits.test = run.whole.take run.test := by
  have result := run.result
  exact ⟨(congrArg Splits.train result).trans (run.whole.take_take _),
    (congrArg Splits.validation result).trans (run.whole.take_take _), congrArg Splits.test result⟩

/-- Every row goes to exactly one of the three parts. -/
theorem perm (partitions : trainTestSplit.Partitions) :
    (run.trained ++ run.validated ++ run.test).Perm (List.finRange run.whole.y.length) := by
  have inner := partitions _ _ _ _ _ run.second
  have picked := inner.map fun i => run.rest.get (i.cast (run.whole.length_take_y))
  rw [List.map_append] at picked
  have whole : (run.trained ++ run.validated).Perm run.rest :=
    picked.trans (List.Perm.of_eq run.whole.pick_finRange)
  exact (whole.append_right _).trans (partitions _ _ _ _ _ run.first)

end SplitRun

/-- Rounding up the share of what rounding up a fraction has left over: the
first error counts only as far as the share goes, and against the second. -/
theorem ceil_of_rest {n validationFraction testFraction share : ℚ} {tested validated : ℤ}
    (isTested : tested = ⌈testFraction * n⌉) (isValidated : validated = ⌈share * (n - tested)⌉)
    (positive : 0 < share) (proper : share < 1) (rescaled : share * (1 - testFraction) = validationFraction) :
    |(tested : ℚ) - testFraction * n| < 1 ∧ |(validated : ℚ) - validationFraction * n| < 1 := by
  have testLow : testFraction * n ≤ tested := isTested ▸ Int.le_ceil _
  have testHigh : (tested : ℚ) < testFraction * n + 1 := isTested ▸ Int.ceil_lt_add_one _
  have low : share * (n - tested) ≤ validated := isValidated ▸ Int.le_ceil _
  have high : (validated : ℚ) < share * (n - tested) + 1 := isValidated ▸ Int.ceil_lt_add_one _
  have apart : validationFraction * n = share * (n - tested) + share * (tested - testFraction * n) := by
    rw [← rescaled]
    ring
  have first : 0 ≤ share * (tested - testFraction * n) := mul_nonneg positive.le (by linarith)
  have second : share * (tested - testFraction * n) < 1 := by
    calc share * (tested - testFraction * n) ≤ 1 * (tested - testFraction * n) :=
          mul_le_mul_of_nonneg_right proper.le (by linarith)
      _ < 1 := by linarith
  exact ⟨abs_lt.mpr ⟨by linarith, by linarith⟩, abs_lt.mpr ⟨by linarith, by linarith⟩⟩

theorem TrainingFrame.length_sample {df : TrainingFrame} {sample : Sample} (found : df.sample = .ok sample) :
    sample.y.length = df.rows.length := by
  unfold TrainingFrame.sample at found
  split at found
  · cases found
    exact List.length_map ..
  · cases found

theorem share_of_fractions {validationFraction testFraction share : ℚ}
    (isShare : Arithmetic.rationals.div validationFraction
      (Arithmetic.rationals.sub Arithmetic.rationals.one testFraction) = some share)
    (someValidation : 0 < validationFraction) (proper : validationFraction + testFraction < 1) :
    0 < share ∧ share < 1 ∧ share * (1 - testFraction) = validationFraction := by
  have left : 0 < 1 - testFraction := by linarith
  change (if 1 - testFraction = 0 then none else some (validationFraction / (1 - testFraction))) = _ at isShare
  rw [if_neg left.ne', Option.some.injEq] at isShare
  subst isShare
  refine ⟨div_pos someValidation left, ?_, div_mul_cancel₀ _ left.ne'⟩
  rw [div_lt_one left]
  linarith

theorem SplitRun.sizes (run : SplitRun arithmetic trainTestSplit df seed validationFraction testFraction splits) :
    splits.sizes.test = run.test.length ∧ splits.sizes.validation = run.validation.length := by
  obtain ⟨-, validation, test⟩ := run.parts
  constructor
  · exact (congrArg (fun part : Sample => part.x.length) test).trans run.whole.length_take_x
  · exact (congrArg (fun part : Sample => part.x.length) validation).trans
      (run.whole.length_take_x.trans (List.length_map ..))

/-- The sizes that rounding up gives, of the rows and of what the first split
has left of them. -/
theorem SplitRun.rounded {trainTestSplit : SplitBy ℚ} {validationFraction testFraction : ℚ}
    (run : SplitRun .rationals trainTestSplit df seed validationFraction testFraction splits)
    (partitions : trainTestSplit.Partitions) (roundsUp : trainTestSplit.RoundsUp) :
    ((run.test.length : ℕ) : ℤ) = ⌈testFraction * df.rows.length⌉ ∧
      ((run.validation.length : ℕ) : ℤ) = ⌈run.share * ((df.rows.length : ℚ) - ((run.test.length : ℤ) : ℚ))⌉ := by
  have rows := TrainingFrame.length_sample run.isWhole
  have shared : run.rest.length + run.test.length = df.rows.length := by
    have counted := (partitions _ _ _ _ _ run.first).length_eq
    rw [List.length_append, List.length_finRange] at counted
    exact counted.trans rows
  have remaining : ((run.whole.take run.rest).y.length : ℚ) = df.rows.length - ((run.test.length : ℤ) : ℚ) := by
    rw [run.whole.length_take_y, ← shared]
    push_cast
    ring
  constructor
  · rw [← rows]
    exact roundsUp _ _ _ _ _ run.first
  · exact remaining ▸ roundsUp _ _ _ _ _ run.second

/-- **The three-way split** in exact arithmetic: the parts share out the rows,
each row once, the validation share is a proper fraction, and two parts miss
their fraction of the rows by less than a row. -/
theorem split_three_ways {trainTestSplit : SplitBy ℚ} {df : TrainingFrame} {seed : Int}
    {validationFraction testFraction : ℚ} {splits : Splits} (partitions : trainTestSplit.Partitions)
    (roundsUp : trainTestSplit.RoundsUp) (someValidation : 0 < validationFraction)
    (proper : validationFraction + testFraction < 1)
    (returned : splitFrameOver .rationals trainTestSplit df seed validationFraction testFraction = .ok splits) :
    (∃ (whole : Sample) (train validation test : List (Fin whole.y.length)), df.sample = .ok whole ∧
      whole.y.length = df.rows.length ∧ splits.train = whole.take train ∧ splits.validation = whole.take validation ∧
      splits.test = whole.take test ∧ (train ++ validation ++ test).Perm (List.finRange whole.y.length)) ∧
      (∃ share, Arithmetic.rationals.div validationFraction (1 - testFraction) = some share ∧ 0 < share ∧ share < 1) ∧
      |(splits.sizes.test : ℚ) - testFraction * df.rows.length| < 1 ∧
      |(splits.sizes.validation : ℚ) - validationFraction * df.rows.length| < 1 := by
  obtain ⟨run⟩ := splitFrameOver_run returned
  obtain ⟨train, validation, test⟩ := run.parts
  obtain ⟨positive, small, rescaled⟩ := share_of_fractions run.isShare someValidation proper
  obtain ⟨isTested, isValidated⟩ := run.rounded partitions roundsUp
  obtain ⟨testNear, validationNear⟩ := ceil_of_rest isTested isValidated positive small rescaled
  obtain ⟨testSize, validationSize⟩ := run.sizes
  rw [testSize, validationSize]
  exact ⟨⟨run.whole, run.trained, run.validated, run.test, run.isWhole, TrainingFrame.length_sample run.isWhole, train,
    validation, test, run.perm partitions⟩, ⟨run.share, run.isShare, positive, small⟩, testNear, validationNear⟩

/-- A split of rows of one class, where no draw is better than another: the
last rows are tested. Other labels it refuses. -/
def lastRows : SplitBy ℚ := fun y testSize _ =>
  let tested := ⌈testSize * y.length⌉.toNat
  if 0 < testSize ∧ testSize < 1 ∧ 0 < tested ∧ tested < y.length ∧ y.all (· == 1) then
    .ok ((List.finRange y.length).take (y.length - tested), (List.finRange y.length).drop (y.length - tested))
  else .error "ValueError"

theorem lastRows_partitions : lastRows.Partitions := by
  intro y testSize randomState rest test returned
  unfold lastRows at returned
  dsimp only at returned
  split at returned
  · cases returned
    rw [List.take_append_drop]
  · cases returned

theorem lastRows_roundsUp : lastRows.RoundsUp := by
  intro y testSize randomState rest test returned
  unfold lastRows at returned
  dsimp only at returned
  split at returned
  · rename_i valid
    cases returned
    rw [List.length_drop, List.length_finRange]
    omega
  · cases returned

/-- A frame of one class. -/
def uniformFrame (count : Nat) : TrainingFrame where
  columns := featureColumns
  rows := (List.range count).map fun i => ⟨s!"higgs-{i}", i, 1, featureColumns.map (·, 0)⟩
  aligned row member := by
    obtain ⟨i, -, rfl⟩ := List.mem_map.mp member
    rfl

theorem uniform_splits : ∃ splits,
    splitFrameOver .rationals lastRows (uniformFrame 10) 0 (3 / 20) (3 / 20) = .ok splits := by
  have succeeds : (splitFrameOver .rationals lastRows (uniformFrame 10) 0 (3 / 20) (3 / 20)).isOk = true := by
    decide +kernel
  cases outcome : splitFrameOver .rationals lastRows (uniformFrame 10) 0 (3 / 20) (3 / 20) with
  | ok splits => exact ⟨splits, rfl⟩
  | error message =>
    rw [outcome] at succeeds
    cases succeeds

theorem uniform_split_near : ∃ splits,
    splitFrameOver .rationals lastRows (uniformFrame 10) 0 (3 / 20) (3 / 20) = .ok splits ∧
      |(splits.sizes.test : ℚ) - 3 / 20 * (uniformFrame 10).rows.length| < 1 ∧
      |(splits.sizes.validation : ℚ) - 3 / 20 * (uniformFrame 10).rows.length| < 1 := by
  obtain ⟨splits, returned⟩ := uniform_splits
  have three := split_three_ways lastRows_partitions lastRows_roundsUp (by norm_num) (by norm_num) returned
  exact ⟨splits, returned, three.2.2⟩

end Amel
