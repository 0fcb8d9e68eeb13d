import Amel.Common.Events
import Amel.Lake.Validation
import Amel.Python.Double

universe u

namespace Amel

open Python (Double)

/-- What a cell holds, as the rules of the schemas see it: a naive `datetime`
in nanoseconds, another object with its value where it is a number. -/
inductive Cell
  | null
  | str (value : String)
  | int (value : Int)
  | float (value : Double)
  | datetime (nanoseconds : Int)
  | object (number : Option ℚ)
  deriving DecidableEq

/-- None, NaN and NaT. -/
def Cell.isNull : Cell → Bool
  | null => true
  | float value => value.isNaN
  | _ => false

/-- The dtypes the schemas tell apart. -/
inductive Dtype
  | object
  | int64
  | float64
  | datetime64ns
  | other
  deriving DecidableEq

def Dtype.Admits : Dtype → Cell → Prop
  | int64, cell => ∃ value, cell = .int value
  | float64, cell => ∃ value, cell = .float value
  | datetime64ns, cell => cell = .null ∨ ∃ nanoseconds, cell = .datetime nanoseconds
  | object, _ | other, _ => True

/-- A row of a frame. Its label is null where the index holds None or NaN. -/
structure DataFrame.Row (Label : Type u) where
  label : Option Label
  cells : String → Cell

/-- A frame by the dtypes of its columns. -/
structure DataFrame (Label : Type u) where
  dtypes : String → Option Dtype
  rows : List (DataFrame.Row Label)
  admitted : ∀ row ∈ rows, ∀ name dtype, dtypes name = some dtype → dtype.Admits (row.cells name)

/-- `df.drop(index=labels)`. -/
def DataFrame.drop {Label : Type u} [DecidableEq Label] (df : DataFrame Label) (labels : List Label) :
    DataFrame Label where
  dtypes := df.dtypes
  rows := df.rows.filter fun row => row.label.all fun label => label ∉ labels
  admitted row member := df.admitted row (List.mem_filter.mp member).1

/-- The first argument of `pa.Column`. -/
inductive ColumnType
  | str
  | int
  | float
  | datetime64ns
  deriving DecidableEq

/-- `pa.Check`, its bounds in microseconds or whole numbers. -/
inductive Check
  | ge (minimum : Int)
  | le (maximum : Int)
  | inRange (minimum maximum : Int)
  | isin (allowed : List Int)

/-- The check of a cell that is not null; `none` where the comparison raises. -/
def Check.test : Check → Cell → Option Bool
  | ge minimum, .datetime nanoseconds => some (1000 * minimum ≤ nanoseconds)
  | le maximum, .datetime nanoseconds => some (nanoseconds ≤ 1000 * maximum)
  | inRange minimum maximum, .int value => some (minimum ≤ value && value ≤ maximum)
  | inRange minimum maximum, .float value =>
    some (value.isFinite && Double.wholeUnits minimum ≤ value.units && value.units ≤ Double.wholeUnits maximum)
  | inRange minimum maximum, .object (some value) => some (minimum ≤ value && value ≤ maximum)
  | isin allowed, .int value => some (allowed.contains value)
  | isin allowed, .float value => some (value.isFinite && allowed.any (value.units = Double.wholeUnits ·))
  | isin allowed, .object (some value) => some (allowed.any (value = ·))
  | isin _, _ => some false
  | _, _ => none

/-- `pa.Column`. -/
structure ColumnSchema where
  name : String
  type : ColumnType
  checks : List Check := []
  unique : Bool := false
  nullable : Bool := false

abbrev DataFrameSchema := List ColumnSchema

/-- `_FEATURE_BOUNDS`. -/
def featureBounds : Int × Int := (-50, 50)

/-- `_MIN_EVENT_TIMESTAMP`: 2000-01-01. -/
def minEventTimestamp : Int := 946684800000000

/-- `_FUTURE_GRACE`: one day. -/
def futureGrace : Int := 86400000000

def maxEventTimestamp (now : Int) : Int := now + futureGrace

def timestampColumn (name : String) (now : Int) : ColumnSchema where
  name
  type := .datetime64ns
  checks := [.ge minEventTimestamp, .le (maxEventTimestamp now)]

/-- `features_schema`, called at a time. -/
def featuresSchema (now : Int) : DataFrameSchema :=
  [{ name := "event_id", type := .str, unique := true }, { name := "entity_id", type := .str },
    timestampColumn "event_timestamp" now] ++
  higgsFeatureNames.map fun name => { name, type := .float, checks := [.inRange featureBounds.1 featureBounds.2] }

/-- `labels_schema`. -/
def labelsSchema (now : Int) : DataFrameSchema :=
  [{ name := "event_id", type := .str, unique := true }, { name := "entity_id", type := .str },
    { name := "target", type := .int, checks := [.isin [0, 1]] }, timestampColumn "label_timestamp" now]

/-- The type as a property of the column. Columns of strings have no dtype of
their own; pandera looks at their elements. -/
def ColumnType.accepts : ColumnType → Dtype → Bool
  | str, _ => true
  | int, dtype => dtype = .int64
  | float, dtype => dtype = .float64
  | datetime64ns, dtype => dtype = .datetime64ns

/-- The type as a property of a cell that is not null. -/
def ColumnType.has : ColumnType → Cell → Bool
  | str, .str _ | int, .int _ | float, .float _ | datetime64ns, .datetime _ => true
  | _, _ => false

variable {Label : Type u}

/-- The check raises on some element, and so as a whole. -/
def DataFrame.raises (df : DataFrame Label) (name : String) (check : Check) : Bool :=
  df.rows.any fun row => !(row.cells name).isNull && (check.test (row.cells name)).isNone

/-- How often the value stands in the column. -/
def DataFrame.copies (df : DataFrame Label) (name : String) (cell : Cell) : Nat :=
  (df.rows.map (·.cells name)).count cell

/-- The failures of one cell: a null, a string column's element that is none,
an element below a check, a repeated value. -/
def ColumnSchema.cellFails (column : ColumnSchema) (df : DataFrame Label) (cell : Cell) : Bool :=
  (!column.nullable && cell.isNull) ||
  (!cell.isNull && column.type = .str && !column.type.has cell) ||
  (!cell.isNull && column.checks.any fun check => !df.raises column.name check && check.test cell = some false) ||
  (column.unique && 1 < df.copies column.name cell)

/-- The failures of a column: it is missing, its dtype is wrong, or a check raises. -/
def ColumnSchema.columnFails (column : ColumnSchema) (df : DataFrame Label) : Bool :=
  match df.dtypes column.name with
  | none => true
  | some dtype => !column.type.accepts dtype || column.checks.any (df.raises column.name)

namespace DataFrameSchema

/-- A row has a failure of its own. -/
def rowFails (schema : DataFrameSchema) (df : DataFrame Label) (row : DataFrame.Row Label) : Bool :=
  schema.any fun column => (df.dtypes column.name).isSome && column.cellFails df (row.cells column.name)

/-- The frame has a failure that is no row's. -/
def columnFails (schema : DataFrameSchema) (df : DataFrame Label) : Bool := schema.any (·.columnFails df)

end DataFrameSchema

variable (schema : DataFrameSchema) (df : DataFrame Label)

/-- What a column of the schema asks of a row. -/
structure ColumnSchema.Satisfied (column : ColumnSchema) (df : DataFrame Label) (row : DataFrame.Row Label) :
    Prop where
  typed : ∃ dtype, df.dtypes column.name = some dtype ∧ column.type.accepts dtype = true
  notNull : column.nullable = false → (row.cells column.name).isNull = false
  ofType : (row.cells column.name).isNull = false → column.type.has (row.cells column.name) = true
  checked : (row.cells column.name).isNull = false →
    ∀ check ∈ column.checks, check.test (row.cells column.name) = some true
  single : column.unique = true → df.copies column.name (row.cells column.name) = 1

/-- The row satisfies every rule of the schema. -/
def DataFrameSchema.Satisfied (row : DataFrame.Row Label) : Prop := ∀ column ∈ schema, column.Satisfied df row

/-- A check of values of that type, which raises on none of them. -/
def Check.suits : Check → ColumnType → Bool
  | ge _, .datetime64ns | le _, .datetime64ns | inRange _ _, .float | isin _, .int => true
  | _, _ => false

/-- The checks of each column suit its type. -/
def DataFrameSchema.Suited : Prop := ∀ column ∈ schema, ∀ check ∈ column.checks, check.suits column.type = true

theorem featuresSchema_suited (now : Int) : (featuresSchema now).Suited := by
  intro column member check checked
  rcases List.mem_append.mp member with first | feature
  · simp only [List.mem_cons, List.not_mem_nil, or_false] at first
    rcases first with rfl | rfl | rfl
    · cases checked
    · cases checked
    · simp only [timestampColumn, List.mem_cons, List.not_mem_nil, or_false] at checked
      rcases checked with rfl | rfl <;> rfl
  · obtain ⟨name, -, rfl⟩ := List.mem_map.mp feature
    cases List.mem_singleton.mp checked
    rfl

theorem labelsSchema_suited (now : Int) : (labelsSchema now).Suited := by
  intro column member check checked
  simp only [labelsSchema, List.mem_cons, List.not_mem_nil, or_false] at member
  rcases member with rfl | rfl | rfl | rfl
  · cases checked
  · cases checked
  · cases List.mem_singleton.mp checked
    rfl
  · simp only [timestampColumn, List.mem_cons, List.not_mem_nil, or_false] at checked
    rcases checked with rfl | rfl <;> rfl

theorem Check.test_of_suits {check : Check} {type : ColumnType} {cell : Cell} (suits : check.suits type = true)
    (has : type.has cell = true) : (check.test cell).isSome = true := by
  cases check with
  | ge | le =>
    cases type <;> cases suits
    cases cell <;> first | rfl | cases has
  | inRange =>
    cases type <;> cases suits
    cases cell <;> first | rfl | cases has
  | isin =>
    cases type <;> cases suits
    cases cell <;> first | rfl | cases has

/-- In a column of an accepted dtype an element has the type, unless it is
null or the type is that of strings. -/
theorem ColumnType.has_of_admits {type : ColumnType} {dtype : Dtype} {cell : Cell}
    (accepts : type.accepts dtype = true) (admits : dtype.Admits cell) (notNull : cell.isNull = false)
    (notStr : type ≠ .str) : type.has cell = true := by
  cases type with
  | str => exact absurd rfl notStr
  | int =>
    cases of_decide_eq_true accepts
    obtain ⟨value, rfl⟩ := admits
    rfl
  | float =>
    cases of_decide_eq_true accepts
    obtain ⟨value, rfl⟩ := admits
    rfl
  | datetime64ns =>
    cases of_decide_eq_true accepts
    rcases admits with rfl | ⟨nanoseconds, rfl⟩
    · cases notNull
    · rfl

variable {schema df} {column : ColumnSchema} {row : DataFrame.Row Label}

/-- A check that suits a column of an accepted dtype raises on none of its elements. -/
theorem ColumnSchema.not_raises {dtype : Dtype} (atDtype : df.dtypes column.name = some dtype)
    (accepts : column.type.accepts dtype = true) {check : Check} (suits : check.suits column.type = true) :
    df.raises column.name check = false := by
  rw [DataFrame.raises, List.any_eq_false]
  intro row member
  rw [Bool.and_eq_true, not_and, Bool.not_eq_true, Option.isNone_eq_false_iff]
  intro notNull
  have notStr : column.type ≠ .str := by
    intro str
    rw [str] at suits
    cases check <;> cases suits
  exact Check.test_of_suits suits (ColumnType.has_of_admits accepts (df.admitted row member _ _ atDtype)
    (Bool.not_eq_true' _ ▸ notNull) notStr)

theorem DataFrameSchema.columnFails_eq_false (suited : schema.Suited) : schema.columnFails df = false ↔
    ∀ column ∈ schema, ∃ dtype, df.dtypes column.name = some dtype ∧ column.type.accepts dtype = true := by
  rw [columnFails, List.any_eq_false]
  refine forall₂_congr fun column member => ?_
  rw [ColumnSchema.columnFails]
  cases atDtype : df.dtypes column.name with
  | none => simp
  | some dtype =>
    cases accepts : column.type.accepts dtype with
    | false => simp [accepts]
    | true =>
      have quiet : column.checks.any (df.raises column.name) = false :=
        List.any_eq_false.mpr fun check checked =>
          Bool.eq_false_iff.mp (ColumnSchema.not_raises atDtype accepts (suited column member check checked))
      simp [quiet, accepts]

/-- The checks of a column that raise on none of its elements: an element fails
none exactly when it passes all. -/
theorem ColumnSchema.checked_iff (quiet : ∀ check ∈ column.checks, df.raises column.name check = false)
    (member : row ∈ df.rows) (notNull : (row.cells column.name).isNull = false) :
    (column.checks.any fun check =>
        !df.raises column.name check && check.test (row.cells column.name) = some false) = false ↔
      ∀ check ∈ column.checks, check.test (row.cells column.name) = some true := by
  rw [List.any_eq_false]
  refine forall₂_congr fun check inChecks => ?_
  have notRaised := List.any_eq_false.mp (quiet check inChecks) row member
  rw [quiet check inChecks]
  cases result : check.test (row.cells column.name) with
  | none => simp [notNull, result] at notRaised
  | some passed => cases passed <;> simp

/-- An element without a failure, in a column of an accepted dtype, is one that
satisfies the column. -/
theorem ColumnSchema.satisfied_iff {dtype : Dtype} (atDtype : df.dtypes column.name = some dtype)
    (accepts : column.type.accepts dtype = true) (suits : ∀ check ∈ column.checks, check.suits column.type = true)
    (member : row ∈ df.rows) :
    column.Satisfied df row ↔ column.cellFails df (row.cells column.name) = false := by
  have present : 0 < df.copies column.name (row.cells column.name) :=
    List.count_pos_iff.mpr (List.mem_map_of_mem member)
  have admits := df.admitted row member _ _ atDtype
  have quiet : ∀ check ∈ column.checks, df.raises column.name check = false := fun check inChecks =>
    ColumnSchema.not_raises atDtype accepts (suits check inChecks)
  rw [cellFails, Bool.or_eq_false_iff, Bool.or_eq_false_iff, Bool.or_eq_false_iff]
  constructor
  · rintro ⟨-, notNull, ofType, checked, single⟩
    refine ⟨⟨⟨?_, ?_⟩, ?_⟩, ?_⟩
    · cases nullable : column.nullable
      · simp [notNull nullable]
      · rfl
    · cases isNull : (row.cells column.name).isNull
      · simp [ofType isNull]
      · rfl
    · cases isNull : (row.cells column.name).isNull
      · exact (ColumnSchema.checked_iff quiet member isNull).mpr (checked isNull)
      · rfl
    · cases unique : column.unique
      · rfl
      · simp [single unique]
  · rintro ⟨⟨⟨nulls, strings⟩, checks⟩, copies⟩
    refine ⟨⟨dtype, atDtype, accepts⟩, fun nullable => ?_, fun isNull => ?_, fun isNull => ?_, fun unique => ?_⟩
    · simpa [nullable] using nulls
    · by_cases str : column.type = .str
      · simpa [isNull, str] using strings
      · exact ColumnType.has_of_admits accepts admits isNull str
    · rw [isNull] at checks
      exact (ColumnSchema.checked_iff quiet member isNull).mp checks
    · have most : ¬1 < df.copies column.name (row.cells column.name) := by simpa [unique] using copies
      omega

/-- A row satisfies the schema when neither it nor a column has a failure. -/
theorem DataFrameSchema.satisfied_iff (suited : schema.Suited) (member : row ∈ df.rows) :
    schema.Satisfied df row ↔ schema.columnFails df = false ∧ schema.rowFails df row = false := by
  rw [columnFails_eq_false suited, rowFails, List.any_eq_false]
  constructor
  · intro satisfied
    refine ⟨fun column inSchema => (satisfied column inSchema).typed, fun column inSchema => ?_⟩
    obtain ⟨dtype, atDtype, accepts⟩ := (satisfied column inSchema).typed
    have cell := (ColumnSchema.satisfied_iff atDtype accepts (suited column inSchema) member).mp
      (satisfied column inSchema)
    simp [atDtype, cell]
  · rintro ⟨typed, cells⟩ column inSchema
    obtain ⟨dtype, atDtype, accepts⟩ := typed column inSchema
    have cell := cells column inSchema
    rw [atDtype, Option.isSome_some, Bool.true_and, Bool.not_eq_true] at cell
    exact (ColumnSchema.satisfied_iff atDtype accepts (suited column inSchema) member).mpr cell

/-- `schema.validate(df, lazy=True)` by the `index` column of its failure
cases: the label of each row that has a failure, and null for a column that
has one. -/
structure LazyValidation (Label : Type u) where
  failureCases : DataFrameSchema → DataFrame Label → List (Option Label)
  reports : ∀ schema df index, index ∈ failureCases schema df ↔
    (∃ row ∈ df.rows, row.label = index ∧ schema.rowFails df row = true) ∨
      (index = none ∧ schema.columnFails df = true)

/-- A frame all of whose rows satisfy the schema has no failure cases. -/
theorem LazyValidation.failureCases_nil {pandera : LazyValidation Label} (suited : schema.Suited)
    (nonempty : df.rows ≠ []) (satisfied : ∀ row ∈ df.rows, schema.Satisfied df row) :
    pandera.failureCases schema df = [] := by
  refine List.eq_nil_iff_forall_not_mem.mpr fun index inCases => ?_
  rcases (pandera.reports schema df index).mp inCases with ⟨row, member, -, fails⟩ | ⟨-, fails⟩
  · rw [((schema.satisfied_iff suited member).mp (satisfied row member)).2] at fails
    cases fails
  · obtain ⟨row, member⟩ := List.exists_mem_of_ne_nil _ nonempty
    rw [((schema.satisfied_iff suited member).mp (satisfied row member)).1] at fails
    cases fails

variable [DecidableEq Label]

namespace LazyValidation

/-- `set(failure_cases["index"].dropna().tolist())`. -/
def invalidIndex (pandera : LazyValidation Label) (schema : DataFrameSchema) (df : DataFrame Label) : List Label :=
  ((pandera.failureCases schema df).filterMap id).dedup

/-- `validate`. -/
def validate (pandera : LazyValidation Label) (schema : DataFrameSchema) (df : DataFrame Label) :
    DataFrame Label × ValidationReport :=
  let total := df.rows.length
  if total = 0 then (df, ⟨0, 0, 0⟩)
  else if (pandera.failureCases schema df).isEmpty then (df, ⟨total, total, 0⟩)
  else
    let validDf := df.drop (pandera.invalidIndex schema df)
    (validDf, ⟨total, validDf.rows.length, (pandera.invalidIndex schema df).length⟩)

variable {pandera : LazyValidation Label}

theorem mem_invalidIndex {label : Label} : label ∈ pandera.invalidIndex schema df ↔
    ∃ row ∈ df.rows, row.label = some label ∧ schema.rowFails df row = true := by
  rw [invalidIndex, List.mem_dedup, List.mem_filterMap]
  simp only [id_eq, exists_eq_right, pandera.reports, reduceCtorEq, false_and, or_false]

/-- In each branch the rows of the index are left out and counted. -/
theorem validate_eq (pandera : LazyValidation Label) (schema : DataFrameSchema) (df : DataFrame Label) :
    pandera.validate schema df = (df.drop (pandera.invalidIndex schema df),
      ⟨df.rows.length, (df.drop (pandera.invalidIndex schema df)).rows.length,
        (pandera.invalidIndex schema df).length⟩) := by
  have nothing (empty : pandera.invalidIndex schema df = []) : df.drop (pandera.invalidIndex schema df) = df := by
    cases df
    rw [DataFrame.drop, empty]
    simp
  unfold validate
  dsimp only
  split
  · rename_i noRows
    have empty : pandera.invalidIndex schema df = [] := by
      refine List.eq_nil_iff_forall_not_mem.mpr fun label invalid => ?_
      obtain ⟨row, member, -⟩ := mem_invalidIndex.mp invalid
      rw [List.length_eq_zero_iff.mp noRows] at member
      cases member
    rw [nothing empty, empty, noRows]
    rfl
  · split
    · rename_i noCases
      have empty : pandera.invalidIndex schema df = [] := by
        rw [invalidIndex, List.isEmpty_iff.mp noCases]
        rfl
      rw [nothing empty, empty]
      rfl
    · rfl

/-- With distinct labels exactly the failing rows that have one are left out. -/
theorem mem_drop (distinct : (df.rows.map (·.label)).Nodup) {row : DataFrame.Row Label} :
    row ∈ (df.drop (pandera.invalidIndex schema df)).rows ↔
      row ∈ df.rows ∧ (schema.rowFails df row = true → row.label = none) := by
  rw [DataFrame.drop, List.mem_filter]
  refine and_congr_right fun member => ?_
  cases atLabel : row.label with
  | none => simp
  | some label =>
    rw [Option.all_some, decide_eq_true_eq, mem_invalidIndex]
    constructor
    · intro absent fails
      exact absurd ⟨row, member, atLabel, fails⟩ absent
    · rintro passes ⟨other, inRows, sameLabel, fails⟩
      cases List.inj_on_of_nodup_map distinct member inRows (atLabel.trans sameLabel.symm)
      cases passes fails

/-- Each row is kept or counted as invalid. -/
theorem length_drop (distinct : (df.rows.map (·.label)).Nodup) :
    (df.drop (pandera.invalidIndex schema df)).rows.length + (pandera.invalidIndex schema df).length =
      df.rows.length := by
  have invalidDistinct : (pandera.invalidIndex schema df).Nodup := List.nodup_dedup _
  have leftOut_iff (row : DataFrame.Row Label) (label : Label) (atLabel : row.label = some label) :
      (!row.label.all fun label => label ∉ pandera.invalidIndex schema df) = true ↔
        label ∈ pandera.invalidIndex schema df := by
    rw [atLabel, Option.all_some, decide_not, Bool.not_not, decide_eq_true_iff]
  have dropped : ((df.rows.filter fun row => !row.label.all fun label => label ∉ pandera.invalidIndex schema df).map
      (·.label)).Perm ((pandera.invalidIndex schema df).map some) := by
    refine (List.perm_ext_iff_of_nodup (distinct.sublist (List.filter_sublist.map _))
      (invalidDistinct.map (Option.some_injective _))).mpr fun index => ?_
    rw [List.mem_map, List.mem_map]
    constructor
    · rintro ⟨row, leftOut, rfl⟩
      obtain ⟨-, invalid⟩ := List.mem_filter.mp leftOut
      cases atLabel : row.label with
      | none => simp [atLabel] at invalid
      | some label => exact ⟨label, (leftOut_iff row label atLabel).mp invalid, rfl⟩
    · rintro ⟨label, invalid, rfl⟩
      obtain ⟨row, member, atLabel, -⟩ := mem_invalidIndex.mp invalid
      exact ⟨row, List.mem_filter.mpr ⟨member, (leftOut_iff row label atLabel).mpr invalid⟩, atLabel⟩
  have counted := dropped.length_eq
  rw [List.length_map, List.length_map] at counted
  rw [← counted, DataFrame.drop, ← List.length_eq_length_filter_add]

end LazyValidation

/-- Validation of a frame as it is meant: of its rows those stay that satisfy
the schema, the report counts the rest, there is nothing left to find, and
whatever passes a gate satisfies the schema. -/
structure LazyValidation.Sound (pandera : LazyValidation Label) (schema : DataFrameSchema) (df : DataFrame Label) :
    Prop where
  part : (pandera.validate schema df).1.rows.Sublist df.rows
  kept : ∀ row, row ∈ (pandera.validate schema df).1.rows ↔ row ∈ df.rows ∧ schema.Satisfied df row
  counted : (pandera.validate schema df).2.totalRows = df.rows.length ∧
    (pandera.validate schema df).2.validRows + (pandera.validate schema df).2.invalidRows = df.rows.length
  again : (pandera.validate schema df).1.rows = [] ∨
    pandera.failureCases schema (pandera.validate schema df).1 = []
  gated : ∀ maxInvalidFraction, (pandera.validate schema df).2.invalidFraction ≤ maxInvalidFraction →
    ∀ row ∈ (pandera.validate schema df).1.rows, schema.Satisfied (pandera.validate schema df).1 row

/-- Leaving out rows takes nothing from the others. -/
theorem DataFrameSchema.Satisfied.drop {labels : List Label} (satisfied : schema.Satisfied df row)
    (member : row ∈ (df.drop labels).rows) : schema.Satisfied (df.drop labels) row := by
  intro column inSchema
  obtain ⟨typed, notNull, ofType, checked, single⟩ := satisfied column inSchema
  refine ⟨typed, notNull, ofType, checked, fun unique => ?_⟩
  have most : (df.drop labels).copies column.name (row.cells column.name) ≤ 1 :=
    single unique ▸ (List.filter_sublist.map _).count_le _
  have present : 0 < (df.drop labels).copies column.name (row.cells column.name) :=
    List.count_pos_iff.mpr (List.mem_map_of_mem member)
  omega

namespace LazyValidation

variable {pandera : LazyValidation Label}

/-- `validate` is sound on a frame exactly when its columns have no failure, or
each row has one as well, and no row that has one has a null label. -/
theorem sound_iff (suited : schema.Suited) (distinct : (df.rows.map (·.label)).Nodup) : pandera.Sound schema df ↔
    (schema.columnFails df = true → ∀ row ∈ df.rows, schema.rowFails df row = true) ∧
      ∀ row ∈ df.rows, schema.rowFails df row = true → row.label ≠ none := by
  have kept (row : DataFrame.Row Label) : row ∈ (pandera.validate schema df).1.rows ↔
      row ∈ df.rows ∧ (schema.rowFails df row = true → row.label = none) := by
    rw [validate_eq]
    exact mem_drop distinct
  constructor
  · intro sound
    have dropped {row : DataFrame.Row Label} (member : row ∈ df.rows) (broken : ¬schema.Satisfied df row) :
        schema.rowFails df row = true ∧ row.label ≠ none := by
      have absent := mt (sound.kept row).mp fun both => broken both.2
      rw [kept, not_and, Classical.not_imp] at absent
      exact absent member
    constructor
    · intro fails row member
      refine (dropped member fun satisfied => ?_).1
      rw [((schema.satisfied_iff suited member).mp satisfied).1] at fails
      cases fails
    · intro row member fails
      refine (dropped member fun satisfied => ?_).2
      rw [((schema.satisfied_iff suited member).mp satisfied).2] at fails
      cases fails
  · rintro ⟨columns, labelled⟩
    have keeps (row : DataFrame.Row Label) : row ∈ (pandera.validate schema df).1.rows ↔
        row ∈ df.rows ∧ schema.Satisfied df row := by
      rw [kept]
      refine and_congr_right fun member => ?_
      rw [schema.satisfied_iff suited member]
      cases fails : schema.rowFails df row with
      | true =>
        have label := labelled row member fails
        simp [label]
      | false =>
        have quiet : schema.columnFails df = false := by
          refine Bool.eq_false_iff.mpr fun failed => ?_
          rw [columns failed row member] at fails
          cases fails
        simp [quiet]
    have remaining : ∀ row ∈ (pandera.validate schema df).1.rows,
        schema.Satisfied (pandera.validate schema df).1 row := by
      intro row member
      have satisfied := ((keeps row).mp member).2
      rw [validate_eq] at member ⊢
      exact satisfied.drop member
    refine ⟨?_, keeps, ?_, ?_, fun _ _ => remaining⟩
    · rw [validate_eq]
      exact List.filter_sublist
    · rw [validate_eq]
      exact ⟨rfl, length_drop distinct⟩
    · by_cases nonempty : (pandera.validate schema df).1.rows = []
      · exact Or.inl nonempty
      · exact Or.inr (failureCases_nil suited nonempty remaining)

/-- For the two schemas of the pipeline. -/
theorem validate_sound_iff {now : Int} (either : schema = featuresSchema now ∨ schema = labelsSchema now)
    (distinct : (df.rows.map (·.label)).Nodup) : pandera.Sound schema df ↔
      (schema.columnFails df = true → ∀ row ∈ df.rows, schema.rowFails df row = true) ∧
        ∀ row ∈ df.rows, schema.rowFails df row = true → row.label ≠ none := by
  rcases either with rfl | rfl
  · exact sound_iff (featuresSchema_suited now) distinct
  · exact sound_iff (labelsSchema_suited now) distinct

end LazyValidation

/-- A library that lists the failures of the rows and then those of the columns. -/
def LazyValidation.listing (Label : Type u) : LazyValidation Label where
  failureCases schema df :=
    (df.rows.filter (schema.rowFails df)).map (·.label) ++ if schema.columnFails df then [none] else []
  reports schema df index := by
    rw [List.mem_append, List.mem_map]
    refine or_congr (exists_congr fun row => ?_) ?_
    · rw [List.mem_filter, and_assoc, and_comm (a := row.label = index)]
    · cases fails : schema.columnFails df with
      | false => simp
      | true => simp

/-- The columns of the label frames, the target's with its dtype. -/
def labelDtypes (target : Dtype) (name : String) : Option Dtype :=
  if name = "event_id" ∨ name = "entity_id" then some .object
  else if name = "target" then some target
  else if name = "label_timestamp" then some .datetime64ns
  else none

def labelCells (eventId entityId : String) (target : Cell) (nanoseconds : Int) (name : String) : Cell :=
  if name = "event_id" then .str eventId
  else if name = "entity_id" then .str entityId
  else if name = "target" then target
  else .datetime nanoseconds

theorem labelCells_admitted {target : Dtype} {cell : Cell} (admits : target.Admits cell) {eventId entityId : String}
    {nanoseconds : Int} {name : String} {dtype : Dtype} (atName : labelDtypes target name = some dtype) :
    dtype.Admits (labelCells eventId entityId cell nanoseconds name) := by
  unfold labelDtypes at atName
  split at atName
  · cases atName
    trivial
  · rename_i others
    obtain ⟨notEvent, notEntity⟩ := not_or.mp others
    rw [labelCells, if_neg notEvent, if_neg notEntity]
    split at atName
    · rename_i isTarget
      cases atName
      rwa [if_pos isTarget]
    · rename_i notTarget
      split at atName
      · cases atName
        rw [if_neg notTarget]
        exact Or.inr ⟨_, rfl⟩
      · cases atName

/-- Two label rows with their targets. -/
def twoLabels (target : Dtype) (first second : Cell) (admits : target.Admits first ∧ target.Admits second) :
    DataFrame Nat where
  dtypes := labelDtypes target
  rows :=
    [⟨some 0, labelCells "label-higgs-000000000" "higgs-000000000" first 1767225600000000000⟩,
      ⟨some 1, labelCells "label-higgs-000000001" "higgs-000000001" second 1767225600000000000⟩]
  admitted row member name dtype atName := by
    simp only [List.mem_cons, List.not_mem_nil, or_false] at member
    rcases member with rfl | rfl
    · exact labelCells_admitted admits.1 atName
    · exact labelCells_admitted admits.2 atName

/-- 2026-01-02. -/
def validatedAt : Int := 1767312000000000

/-- A target that is neither 0 nor 1 goes, the other row stays. -/
theorem whole_targets_sound : ∃ pandera : LazyValidation Nat, ∃ df, df.rows.length = 2 ∧
    pandera.Sound (labelsSchema validatedAt) df ∧ (pandera.validate (labelsSchema validatedAt) df).2 = ⟨2, 1, 1⟩ := by
  refine ⟨.listing Nat, twoLabels .int64 (.int 1) (.int 7) ⟨⟨_, rfl⟩, _, rfl⟩, rfl, ?_, by decide +kernel⟩
  refine (LazyValidation.validate_sound_iff (Or.inr rfl) (by decide)).mpr ⟨fun fails => ?_, fun row member _ => ?_⟩
  · exact absurd fails (by decide +kernel)
  · simp only [twoLabels, List.mem_cons, List.not_mem_nil, or_false] at member
    rcases member with rfl | rfl <;> simp

/-- Targets in a float column: no row has a failure of its own, and the rows
that break the schema are all returned as valid. -/
theorem float_targets_pass :
    ¬∀ (pandera : LazyValidation Nat) (now : Int) (schema : DataFrameSchema) (df : DataFrame Nat),
      schema = featuresSchema now ∨ schema = labelsSchema now → df.rows ≠ [] → (df.rows.map (·.label)).Nodup →
      pandera.Sound schema df := by
  intro sound
  let df := twoLabels .float64 (.float 0) (.float Double.one) ⟨⟨_, rfl⟩, _, rfl⟩
  have claimed := sound (.listing Nat) validatedAt _ df (Or.inr rfl) (by simp [df, twoLabels]) (by decide)
  have columns := ((LazyValidation.sound_iff (labelsSchema_suited _) (by decide)).mp claimed).1
  have failed := columns (by decide +kernel) _ (List.mem_cons_self ..)
  exact absurd failed (by decide +kernel)

end Amel
