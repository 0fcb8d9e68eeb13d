import Amel.Lake.Schema
import Amel.Pipeline.Fidelity
import Amel.Pipeline.Provenance

namespace Amel

open Transition (Reach Guarded)

/-- What a column asks of a cell whatever the other rows hold. -/
structure ColumnSchema.Fits (column : ColumnSchema) (cell : Cell) : Prop where
  notNull : column.nullable = false → cell.isNull = false
  ofType : cell.isNull = false → column.type.has cell = true
  checked : cell.isNull = false → ∀ check ∈ column.checks, check.test cell = some true

/-- Every column fits the cell under its name. -/
def DataFrameSchema.Fits (schema : DataFrameSchema) (cells : String → Cell) : Prop :=
  ∀ column ∈ schema, column.Fits (cells column.name)

theorem DataFrameSchema.Satisfied.fits {Label : Type} {schema : DataFrameSchema} {df : DataFrame Label}
    {row : DataFrame.Row Label} (satisfied : schema.Satisfied df row) : schema.Fits row.cells :=
  fun column inSchema =>
    have rules := satisfied column inSchema
    ⟨rules.notNull, rules.ofType, rules.checked⟩

/-- The bound on a timestamp moves with the clock. -/
theorem timestampColumn_mono {name : String} {now later : Int} {cell : Cell} (passes : now ≤ later)
    (fits : (timestampColumn name now).Fits cell) : (timestampColumn name later).Fits cell := by
  refine ⟨fits.notNull, fits.ofType, fun notNull check inChecks => ?_⟩
  have checked := fits.checked notNull
  simp only [timestampColumn, List.mem_cons, List.not_mem_nil, or_false] at inChecks checked
  rcases inChecks with rfl | rfl
  · exact checked _ (Or.inl rfl)
  · have early := checked _ (Or.inr rfl)
    cases cell with
    | datetime nanoseconds =>
      have below := of_decide_eq_true (Option.some.inj early)
      have allowed : nanoseconds ≤ 1000 * maxEventTimestamp later := by
        unfold maxEventTimestamp at below ⊢
        omega
      exact congrArg some (decide_eq_true allowed)
    | _ => cases early

theorem featuresSchema_mono {now later : Int} {cells : String → Cell} (passes : now ≤ later)
    (fits : (featuresSchema now).Fits cells) : (featuresSchema later).Fits cells := by
  intro column member
  rw [featuresSchema, List.mem_append, List.mem_cons, List.mem_cons, List.mem_singleton] at member
  rcases member with (rfl | rfl | rfl) | feature
  · exact fits _ (by simp [featuresSchema])
  · exact fits _ (by simp [featuresSchema])
  · exact timestampColumn_mono passes (fits (timestampColumn "event_timestamp" now) (by simp [featuresSchema]))
  · exact fits column (List.mem_append_right _ feature)

theorem labelsSchema_mono {now later : Int} {cells : String → Cell} (passes : now ≤ later)
    (fits : (labelsSchema now).Fits cells) : (labelsSchema later).Fits cells := by
  intro column member
  rw [labelsSchema, List.mem_cons, List.mem_cons, List.mem_cons, List.mem_singleton] at member
  rcases member with rfl | rfl | rfl | rfl
  · exact fits _ (by simp [labelsSchema])
  · exact fits _ (by simp [labelsSchema])
  · exact fits _ (by simp [labelsSchema])
  · exact timestampColumn_mono passes (fits (timestampColumn "label_timestamp" now) (by simp [labelsSchema]))

/-- The cells of a feature row, its timestamp in nanoseconds. -/
def featureCells (eventId entityId : String) (eventTimestamp : Int) (features : Features) (name : String) : Cell :=
  if name = "event_id" then .str eventId
  else if name = "entity_id" then .str entityId
  else if name = "event_timestamp" then .datetime (1000 * eventTimestamp)
  else .float ((features.lookup name).getD Float64.nan)

def FeatureRow.cells (r : FeatureRow) : String → Cell :=
  featureCells r.eventId r.entityId r.eventTimestamp r.features

def LabelRow.cells (r : LabelRow) : String → Cell :=
  labelCells r.eventId r.entityId (.int r.target) (1000 * r.labelTimestamp)

def CuratedHiggsFeature.cells (c : CuratedHiggsFeature) : String → Cell :=
  featureCells c.eventId c.entityId c.eventTimestamp c.features

def CuratedHiggsLabel.cells (c : CuratedHiggsLabel) : String → Cell :=
  labelCells c.eventId c.entityId (.int c.target) (1000 * c.labelTimestamp)

/-- The dtypes of the feature frames in the staging directory. -/
def featureDtypes (name : String) : Option Dtype :=
  if name = "event_id" ∨ name = "entity_id" then some .object
  else if name = "event_timestamp" then some .datetime64ns
  else if name ∈ higgsFeatureNames then some .float64
  else none

theorem featureCells_admitted {eventId entityId : String} {eventTimestamp : Int} {features : Features} {name : String}
    {dtype : Dtype} (atName : featureDtypes name = some dtype) :
    dtype.Admits (featureCells eventId entityId eventTimestamp features name) := by
  unfold featureDtypes at atName
  split at atName
  · cases atName
    trivial
  · rename_i others
    obtain ⟨notEvent, notEntity⟩ := not_or.mp others
    rw [featureCells, if_neg notEvent, if_neg notEntity]
    split at atName
    · rename_i isTimestamp
      cases atName
      rw [if_pos isTimestamp]
      exact Or.inr ⟨_, rfl⟩
    · rename_i notTimestamp
      split at atName
      · cases atName
        rw [if_neg notTimestamp]
        exact ⟨_, rfl⟩
      · cases atName

/-- `pd.read_parquet` of a staged frame, with its new index. -/
def readFrame {Row : Type} (dtypes : String → Option Dtype) (cells : Row → String → Cell)
    (admitted : ∀ row name dtype, dtypes name = some dtype → dtype.Admits (cells row name)) (rows : List Row) :
    DataFrame Nat where
  dtypes := dtypes
  rows := rows.zipIdx.map fun (row, index) => ⟨some index, cells row⟩
  admitted := by
    intro row member name dtype atName
    obtain ⟨entry, -, rfl⟩ := List.mem_map.mp member
    exact admitted _ name dtype atName

theorem FeatureRow.admitted (r : FeatureRow) (name : String) (dtype : Dtype)
    (atName : featureDtypes name = some dtype) : dtype.Admits (r.cells name) :=
  featureCells_admitted atName

theorem LabelRow.admitted (r : LabelRow) (name : String) (dtype : Dtype)
    (atName : labelDtypes .int64 name = some dtype) : dtype.Admits (r.cells name) :=
  labelCells_admitted (show Dtype.int64.Admits (.int r.target) from ⟨_, rfl⟩) atName

def featuresFrame (rows : List FeatureRow) : DataFrame Nat :=
  readFrame featureDtypes FeatureRow.cells FeatureRow.admitted rows

def labelsFrame (rows : List LabelRow) : DataFrame Nat :=
  readFrame (labelDtypes .int64) LabelRow.cells LabelRow.admitted rows

/-- The validation of the two frames. -/
def LazyValidation.ofFrames (pandera : LazyValidation Nat) : Pandera where
  featuresSchema now rows := pandera.invalidIndex (Amel.featuresSchema now) (featuresFrame rows)
  labelsSchema now rows := pandera.invalidIndex (Amel.labelsSchema now) (labelsFrame rows)

section ReadFrame

variable {Row : Type} {dtypes : String → Option Dtype} {cells : Row → String → Cell}
  {admitted : ∀ row name dtype, dtypes name = some dtype → dtype.Admits (cells row name)}

theorem readFrame_distinct (rows : List Row) : ((readFrame dtypes cells admitted rows).rows.map (·.label)).Nodup := by
  have labels : (readFrame dtypes cells admitted rows).rows.map (·.label) = (rows.zipIdx.map Prod.snd).map some := by
    rw [readFrame, List.map_map, List.map_map]
    rfl
  rw [labels, List.zipIdx_map_snd]
  exact (List.nodup_range' ..).map (Option.some_injective _)

theorem readFrame_labelled (rows : List Row) :
    ∀ row ∈ (readFrame dtypes cells admitted rows).rows, row.label ≠ none := by
  intro row member
  obtain ⟨entry, -, rfl⟩ := List.mem_map.mp member
  exact Option.some_ne_none _

/-- A new index has a label for each row, so only the columns can go wrong. -/
theorem readFrame_sound {pandera : LazyValidation Nat} {schema : DataFrameSchema} {rows : List Row}
    (suited : schema.Suited) (columns : schema.columnFails (readFrame dtypes cells admitted rows) = false) :
    pandera.Sound schema (readFrame dtypes cells admitted rows) := by
  refine (LazyValidation.sound_iff suited (readFrame_distinct rows)).mpr ⟨fun fails => ?_, fun row member _ => ?_⟩
  · exact absurd fails (Bool.eq_false_iff.mp columns)
  · exact readFrame_labelled rows row member

/-- `validate` of the rows is `validate` of their frame. -/
theorem validate_readFrame (pandera : LazyValidation Nat) (schema : DataFrameSchema) (rows : List Row) :
    let typed := validate (fun rows => pandera.invalidIndex schema (readFrame dtypes cells admitted rows)) rows
    let untyped := pandera.validate schema (readFrame dtypes cells admitted rows)
    typed.1.map cells = untyped.1.rows.map (·.cells) ∧ typed.2 = untyped.2 := by
  have kept : ((readFrame dtypes cells admitted rows).drop
      (pandera.invalidIndex schema (readFrame dtypes cells admitted rows))).rows =
      (rows.zipIdx.filter fun entry =>
        entry.2 ∉ pandera.invalidIndex schema (readFrame dtypes cells admitted rows)).map
        fun entry => ⟨some entry.2, cells entry.1⟩ := by
    rw [DataFrame.drop]
    exact List.filter_map ..
  have invalidDistinct : (pandera.invalidIndex schema (readFrame dtypes cells admitted rows)).Nodup :=
    List.nodup_dedup _
  dsimp only
  rw [LazyValidation.validate_eq, kept]
  unfold validate
  split
  · rename_i noRows
    subst noRows
    have empty : pandera.invalidIndex schema (readFrame dtypes cells admitted []) = [] := by
      refine List.eq_nil_iff_forall_not_mem.mpr fun label invalid => ?_
      obtain ⟨row, member, -⟩ := LazyValidation.mem_invalidIndex.mp invalid
      cases member
    rw [empty]
    exact ⟨rfl, rfl⟩
  · rw [invalidDistinct.dedup]
    dsimp only
    rw [List.map_map, List.map_map, List.length_map, List.length_map, readFrame, List.length_map, List.length_zipIdx]
    exact ⟨rfl, rfl⟩

/-- What `validate` returns of such a frame fits the schema. -/
theorem valid_fits {pandera : LazyValidation Nat} {schema : DataFrameSchema} {rows : List Row} (suited : schema.Suited)
    (columns : schema.columnFails (readFrame dtypes cells admitted rows) = false) {r : Row}
    (valid : r ∈ (validate (fun rows => pandera.invalidIndex schema (readFrame dtypes cells admitted rows)) rows).1) :
    schema.Fits (cells r) := by
  have same := (@validate_readFrame _ _ cells admitted pandera schema rows).1
  obtain ⟨row, kept, isRow⟩ := List.mem_map.mp (same ▸ List.mem_map_of_mem valid)
  have satisfied := ((readFrame_sound suited columns).kept row).mp kept
  exact isRow ▸ satisfied.2.fits

end ReadFrame

theorem featuresFrame_columns (now : Int) (rows : List FeatureRow) :
    (featuresSchema now).columnFails (featuresFrame rows) = false := by
  rw [DataFrameSchema.columnFails_eq_false (featuresSchema_suited now)]
  intro column member
  rw [featuresSchema, List.mem_append, List.mem_cons, List.mem_cons, List.mem_singleton] at member
  rcases member with (rfl | rfl | rfl) | feature
  · exact ⟨.object, rfl, rfl⟩
  · exact ⟨.object, rfl, rfl⟩
  · exact ⟨.datetime64ns, rfl, rfl⟩
  · obtain ⟨name, known, rfl⟩ := List.mem_map.mp feature
    have dtypes : ∀ name ∈ higgsFeatureNames, featureDtypes name = some .float64 := by decide
    exact ⟨.float64, dtypes name known, rfl⟩

theorem labelsFrame_columns (now : Int) (rows : List LabelRow) :
    (labelsSchema now).columnFails (labelsFrame rows) = false := by
  rw [DataFrameSchema.columnFails_eq_false (labelsSchema_suited now)]
  intro column member
  rw [labelsSchema, List.mem_cons, List.mem_cons, List.mem_cons, List.mem_singleton] at member
  rcases member with rfl | rfl | rfl | rfl
  · exact ⟨.object, rfl, rfl⟩
  · exact ⟨.object, rfl, rfl⟩
  · exact ⟨.int64, rfl, rfl⟩
  · exact ⟨.datetime64ns, rfl, rfl⟩

variable {pandera : LazyValidation Nat}

theorem validFeatures_fit {now : Int} {rows : List FeatureRow} {r : FeatureRow}
    (valid : r ∈ (validate (pandera.ofFrames.featuresSchema now) rows).1) : (featuresSchema now).Fits r.cells :=
  valid_fits (featuresSchema_suited now) (featuresFrame_columns now rows) valid

theorem validLabels_fit {now : Int} {rows : List LabelRow} {r : LabelRow}
    (valid : r ∈ (validate (pandera.ofFrames.labelsSchema now) rows).1) : (labelsSchema now).Fits r.cells :=
  valid_fits (labelsSchema_suited now) (labelsFrame_columns now rows) valid

/-- The rebuilt mapping holds the same cells. -/
theorem FeatureRow.curated_fits {now : Int} {r : FeatureRow} (fits : (featuresSchema now).Fits r.cells)
    (runId : String) : (featuresSchema now).Fits (r.curated runId).cells := by
  intro column member
  have same : (r.curated runId).cells column.name = r.cells column.name := by
    unfold CuratedHiggsFeature.cells FeatureRow.cells featureCells
    rw [featuresSchema, List.mem_append, List.mem_cons, List.mem_cons, List.mem_singleton] at member
    rcases member with (rfl | rfl | rfl) | feature
    · rfl
    · rfl
    · rfl
    · obtain ⟨name, known, rfl⟩ := List.mem_map.mp feature
      simp only [FeatureRow.curated, higgsColumns, lookup_map_names, known, if_true, Option.getD_some]
  rw [same]
  exact fits column member

theorem LabelRow.curated_fits {now : Int} {r : LabelRow} (fits : (labelsSchema now).Fits r.cells) (runId : String) :
    (labelsSchema now).Fits (r.curated runId).cells :=
  fits

/-- The frames behind the gate fit the schemas. -/
structure Staging.Valid (now : Int) (files : Staging) : Prop where
  validFeatures : ∀ df, files.validFeatures = some df → ∀ r ∈ df, (featuresSchema now).Fits r.cells
  validLabels : ∀ df, files.validLabels = some df → ∀ r ∈ df, (labelsSchema now).Fits r.cells
  silverFeatures : ∀ df, files.silverFeatures = some df → ∀ r ∈ df, (featuresSchema now).Fits r.cells
  silverLabels : ∀ df, files.silverLabels = some df → ∀ r ∈ df, (labelsSchema now).Fits r.cells

/-- So does what they became: the objects of the silver bucket and the rows of
the curated tables. -/
structure World.Valid (s : World) : Prop where
  staging : ∀ directory, (s.staging directory).Valid s.clock
  silverFeatures : ∀ key df, s.silver key = some (.features df) → ∀ r ∈ df, (featuresSchema s.clock).Fits r.cells
  silverLabels : ∀ key df, s.silver key = some (.labels df) → ∀ r ∈ df, (labelsSchema s.clock).Fits r.cells
  curatedFeatures : ∀ c ∈ s.curatedFeatures, (featuresSchema s.clock).Fits c.cells
  curatedLabels : ∀ c ∈ s.curatedLabels, (labelsSchema s.clock).Fits c.cells

variable {pipeline : Pipeline} {id : String} {s after : World} {p next : DagRun} {action : RunAction}

theorem Staging.Valid.mono {now later : Int} {files : Staging} (valid : files.Valid now) (passes : now ≤ later) :
    files.Valid later :=
  ⟨fun df atKey r member => featuresSchema_mono passes (valid.1 df atKey r member),
    fun df atKey r member => labelsSchema_mono passes (valid.2 df atKey r member),
    fun df atKey r member => featuresSchema_mono passes (valid.3 df atKey r member),
    fun df atKey r member => labelsSchema_mono passes (valid.4 df atKey r member)⟩

theorem World.Valid.happens (valid : s.Valid) {event : LakeEvent} (happened : LakeEvent.Happens s event after) :
    after.Valid := by
  have passes : s.clock ≤ after.clock := by
    cases happened with
    | tick => exact Int.le_add_of_nonneg_right (Int.natCast_nonneg _)
    | _ => exact le_rfl
  have same : after.staging = s.staging ∧ after.silver = s.silver ∧ after.curatedFeatures = s.curatedFeatures ∧
      after.curatedLabels = s.curatedLabels := by
    cases happened <;> exact ⟨rfl, rfl, rfl, rfl⟩
  obtain ⟨staging, silver, features, labels⟩ := same
  constructor
  · exact fun directory => staging ▸ (valid.staging directory).mono passes
  · exact fun key df atKey r member => featuresSchema_mono passes (valid.silverFeatures key df (silver ▸ atKey) r member)
  · exact fun key df atKey r member => labelsSchema_mono passes (valid.silverLabels key df (silver ▸ atKey) r member)
  · exact fun c member => featuresSchema_mono passes (valid.curatedFeatures c (features ▸ member))
  · exact fun c member => labelsSchema_mono passes (valid.curatedLabels c (labels ▸ member))

theorem Staging.Valid.validated {now : Int} {files : Staging} (valid : files.Valid now)
    (validates : pipeline.pandera = pandera.ofFrames) (featuresDf : List FeatureRow) (labelsDf : List LabelRow) :
    Staging.Valid now { files with
      validFeatures := some (pipeline.validateFeatures now featuresDf).1
      validLabels := some (pipeline.validateLabels now labelsDf).1 } := by
  refine { valid with validFeatures := ?_, validLabels := ?_ }
  · rintro _ ⟨⟩ r member
    rw [Pipeline.validateFeatures, validates] at member
    exact validFeatures_fit member
  · rintro _ ⟨⟩ r member
    rw [Pipeline.validateLabels, validates] at member
    exact validLabels_fit member

theorem World.Valid.writeValidated (valid : s.Valid) (validates : pipeline.pandera = pandera.ofFrames)
    (featuresDf : List FeatureRow) (labelsDf : List LabelRow) (directory : String) :
    ((pipeline.writeValidated s id featuresDf labelsDf).staging directory).Valid s.clock :=
  World.stage_all (fun files =>
    { files with
      validFeatures := some (pipeline.validateFeatures s.clock featuresDf).1
      validLabels := some (pipeline.validateLabels s.clock labelsDf).1 }) valid.staging
    ((valid.staging (Keys.safeRunId id)).validated validates featuresDf labelsDf) directory

/-- What a task stages fits: `validate` sees to it, the transformation only
orders rows. -/
theorem World.Valid.staging_step (valid : s.Valid) (validates : pipeline.pandera = pandera.ofFrames)
    (taken : pipeline.Act id s p action after next) (directory : String) :
    (after.staging directory).Valid s.clock := by
  have files := valid.staging (Keys.safeRunId id)
  cases taken with
  | extractLabels => exact World.stage_all _ valid.staging ⟨files.1, files.2, files.3, files.4⟩ directory
  | validatePasses | validateFails => exact valid.writeValidated validates _ _ directory
  | transform _ features labels =>
    refine World.stage_all _ valid.staging { files with silverFeatures := ?_, silverLabels := ?_ } directory
    · rintro _ ⟨⟩ r member
      exact files.validFeatures _ features r ((List.mem_insertionSort _).mp member)
    · rintro _ ⟨⟩ r member
      exact files.validLabels _ labels r ((List.mem_insertionSort _).mp member)
  | finish =>
    refine World.stage_all _ valid.staging ⟨?_, ?_, ?_, ?_⟩ directory
    all_goals rintro _ ⟨⟩
  | giveUp => split <;> exact valid.staging directory
  | _ => exact valid.staging directory

/-- The silver bucket takes what is staged. -/
theorem Pipeline.Act.silver (taken : pipeline.Act id s p action after next) {key : String} {frame : Frame}
    (atKey : after.silver key = some frame) : s.silver key = some frame ∨
      (∃ df, frame = .features df ∧ (s.staging (Keys.safeRunId id)).silverFeatures = some df) ∨
      ∃ df, frame = .labels df ∧ (s.staging (Keys.safeRunId id)).silverLabels = some df := by
  have put {written : String} {new : Frame} (stored : Function.update s.silver written (some new) key = some frame) :
      s.silver key = some frame ∨ frame = new := by
    by_cases same : key = written
    · rw [same, Function.update_self] at stored
      exact Or.inr (Option.some.inj stored).symm
    · rw [Function.update_of_ne same] at stored
      exact Or.inl stored
  cases taken with
  | putSilverFeatures _ staged => exact (put atKey).imp_right fun new => Or.inl ⟨_, new, staged⟩
  | putSilverLabels _ staged => exact (put atKey).imp_right fun new => Or.inr ⟨_, new, staged⟩
  | giveUp => split at atKey <;> exact Or.inl atKey
  | _ => exact Or.inl atKey

theorem World.Valid.step (valid : s.Valid) (validates : pipeline.pandera = pandera.ofFrames)
    (taken : pipeline.Act id s p action after next) : after.Valid := by
  have clock := taken.landing.1
  have files := valid.staging (Keys.safeRunId id)
  refine ⟨clock ▸ valid.staging_step validates taken, fun key df atKey => ?_, fun key df atKey => ?_, ?_, ?_⟩
  all_goals rw [clock]
  · rcases taken.silver atKey with old | ⟨_, ⟨⟩, staged⟩ | ⟨_, ⟨⟩, -⟩
    · exact valid.silverFeatures key df old
    · exact files.silverFeatures df staged
  · rcases taken.silver atKey with old | ⟨_, ⟨⟩, -⟩ | ⟨_, ⟨⟩, staged⟩
    · exact valid.silverLabels key df old
    · exact files.silverLabels df staged
  all_goals
    rcases taken.curates with
      ⟨-, features, labels, -⟩ | ⟨_, _, featuresDf, labelsDf, -, -, -, atFeatures, atLabels, rfl⟩
  · exact features ▸ valid.curatedFeatures
  · intro c member
    rw [World.commitCurated, updateCuratedFeatures_fst] at member
    rcases KeyedTable.mem_insertIgnore _ member with old | new
    · exact valid.curatedFeatures c old
    · obtain ⟨row, inDf, rfl⟩ := List.mem_map.mp new
      exact FeatureRow.curated_fits (files.silverFeatures featuresDf atFeatures row inDf) id
  · exact labels ▸ valid.curatedLabels
  · intro c member
    rw [World.commitCurated, updateCuratedLabels_fst] at member
    rcases KeyedTable.mem_insertIgnore _ member with old | new
    · exact valid.curatedLabels c old
    · obtain ⟨row, inDf, rfl⟩ := List.mem_map.mp new
      exact LabelRow.curated_fits (files.silverLabels labelsDf atLabels row inDf) id

/-- Whatever runs hand on to the silver bucket and to the curated tables fits
the schemas. -/
theorem Pipeline.handed_on_valid (validates : pipeline.pandera = pandera.ofFrames) {clock : ℕ+} {lake : Lake}
    (reach : Reach pipeline.Step (.initial clock) lake) : lake.shared.Valid := by
  refine reach.invariant (fun lake => lake.shared.Valid) ?_ fun before action after _ valid step => ?_
  · refine ⟨fun _ => ⟨?_, ?_, ?_, ?_⟩, fun _ => ?_, fun _ => ?_, ?_, ?_⟩
    all_goals rintro _ ⟨⟩
  · cases step with
    | environment happened => exact valid.happens happened
    | process taken => exact valid.step validates taken

/-- The deployment that validates by the two schemas and lets up to half of the
rows go, on 2026-01-02. -/
def schemaPipeline : Pipeline where
  upperBound _ := validatedAt
  upperBound_after _ := by decide
  startDate _ := none
  pandera := (LazyValidation.listing Nat).ofFrames
  maxInvalidFraction := 1 / 2

/-- A feature and two labels landed a day before, one with a target of 7. -/
def landedWorld : World where
  clock := validatedAt
  landing :=
    { features := [{ HiggsFeatureEvent.of "feature" "higgs-000000000" 1767225600000000 with
        ingestedAt := 1767225600000000 }]
      labels := [{ HiggsLabelEvent.of "label" "higgs-000000000" 1767225600000000 with ingestedAt := 1767225600000000 },
        { HiggsLabelEvent.of "other" "higgs-000000001" 1767225600000000 with
          target := 7, ingestedAt := 1767225600000000 }] }

/-- The label with a target of 7 is turned away, the other one curated. -/
theorem Pipeline.bad_target_turned_away : ∃ lake, Reach schemaPipeline.Step (.initial 1767225600000000) lake ∧
    lake.shared.landing = landedWorld.landing ∧ lake.shared.curatedLabels.map (·.eventId) = ["label"] ∧
      lake.shared.curatedFeatures.map (·.eventId) = ["feature"] ∧ lake.shared.Valid := by
  have landed : Reach (Guarded schemaPipeline.Step fun _ _ => True) (.initial 1767225600000000)
      ⟨landedWorld, Function.update (fun _ => {}) "first" {}⟩ :=
    Lake.reach_landed 1767225600000000 "first" landedWorld.landing.features landedWorld.landing.labels 86400000000
      fun _ _ => trivial
  have gate : schemaPipeline.GatePasses landedWorld (schemaPipeline.rawFeatures "first" landedWorld)
      (schemaPipeline.rawLabels "first" landedWorld) := by
    unfold Pipeline.GatePasses
    decide +kernel
  obtain ⟨prepared, prepares, staged⟩ := Pipeline.reach_prepared landed rfl (by decide) gate fun _ _ _ => trivial
  have committed := Fleet.reach_act prepares
    (.commitCurated rfl rfl rfl staged.silverFeatures staged.silverLabels) trivial
  have silver : schemaPipeline.silverFeatures "first" landedWorld = landedWorld.landing.features.map (·.toRow) ∧
      schemaPipeline.silverLabels "first" landedWorld = (landedWorld.landing.labels.take 1).map (·.toRow) := by
    decide +kernel
  refine ⟨_, committed.forget_guard, ?_, ?_, ?_, handed_on_valid rfl committed.forget_guard⟩
  · show (prepared.commitCurated ..).landing = _
    rw [staged.frame]
    rfl
  · show (prepared.commitCurated ..).curatedLabels.map (·.eventId) = _
    rw [staged.frame, World.commitCurated, updateCuratedLabels_fst, silver.2]
    rfl
  · show (prepared.commitCurated ..).curatedFeatures.map (·.eventId) = _
    rw [staged.frame, World.commitCurated, updateCuratedFeatures_fst, silver.1]
    rfl

end Amel
