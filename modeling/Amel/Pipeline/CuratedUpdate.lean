import Mathlib.Data.Int.ConditionallyCompleteOrder
import Mathlib.Data.PNat.Defs
import Mathlib.Order.WithBot
import Amel.Library.Transaction
import Amel.Pipeline.Dag

namespace Amel

open Transaction

/-- The tables of the transaction of `update_curated_tables_and_advance_watermarks`. -/
structure CuratedStore where
  features : List CuratedHiggsFeature
  labels : List CuratedHiggsLabel
  watermarks : Watermarks

inductive CuratedStatement
  | insertFeatures (batch : List CuratedHiggsFeature)
  | insertLabels (batch : List CuratedHiggsLabel)
  | advanceWatermark (pipelineName : String) (newValue : Int)

/-- Rows inserted into the two curated tables. -/
structure Upserted where
  features : Nat := 0
  labels : Nat := 0
  deriving DecidableEq, Repr

namespace CuratedStatement

/-- One statement: its effect, and the rows its `RETURNING` counts. -/
def execute (s : CuratedStore) : CuratedStatement → CuratedStore × Upserted
  | insertFeatures batch =>
    ({ s with features := KeyedTable.insertIgnore (·.eventId) s.features batch },
      { features := (KeyedTable.returning (·.eventId) s.features batch).length })
  | insertLabels batch =>
    ({ s with labels := KeyedTable.insertIgnore (·.eventId) s.labels batch },
      { labels := (KeyedTable.returning (·.eventId) s.labels batch).length })
  | advanceWatermark pipelineName newValue =>
    ({ s with watermarks := s.watermarks.advance pipelineName newValue }, {})

end CuratedStatement

def Upserted.total (results : List Upserted) : Upserted :=
  ⟨(results.map (·.features)).sum, (results.map (·.labels)).sum⟩

/-- The statements of the transaction, for an `UPSERT_BATCH_SIZE`. -/
def curatedStatements (batchSize : ℕ+) (featuresDf : List FeatureRow) (labelsDf : List LabelRow) (runId : String)
    (upperBound : Int) : List CuratedStatement :=
  (chunked (featuresDf.map (·.curated runId)) batchSize).map .insertFeatures ++
    ((chunked (labelsDf.map (·.curated runId)) batchSize).map .insertLabels ++
      [.advanceWatermark featuresPipeline upperBound, .advanceWatermark labelsPipeline upperBound])

/-- A stored watermark; one that is not stored yet is below every bound. -/
def Watermarks.stored (watermarks : Watermarks) (pipelineName : String) : WithBot Int := watermarks pipelineName

/-- `after` is `before` with the frames' rows and both watermarks moved up to the bound. -/
structure CuratedStore.Updated (before : CuratedStore) (featuresDf : List FeatureRow) (labelsDf : List LabelRow)
    (runId : String) (upperBound : Int) (after : CuratedStore) : Prop where
  features : KeyedTable.FirstWins (·.eventId) before.features (featuresDf.map (·.curated runId)) after.features
  labels : KeyedTable.FirstWins (·.eventId) before.labels (labelsDf.map (·.curated runId)) after.labels
  featuresWatermark : after.watermarks.stored featuresPipeline =
    max (before.watermarks.stored featuresPipeline) upperBound
  labelsWatermark : after.watermarks.stored labelsPipeline = max (before.watermarks.stored labelsPipeline) upperBound
  others : ∀ name, name ≠ featuresPipeline → name ≠ labelsPipeline →
    after.watermarks.stored name = before.watermarks.stored name

theorem stored_advance_self (watermarks : Watermarks) (name : String) (newValue : Int) :
    (watermarks.advance name newValue).stored name = max (watermarks.stored name) newValue := by
  rw [Watermarks.stored, Watermarks.advance, Function.update_self, Watermarks.stored]
  cases watermarks name with
  | none => exact (max_eq_right (bot_le (α := WithBot Int))).symm
  | some value => exact WithBot.coe_max value newValue

theorem stored_advance_of_ne (watermarks : Watermarks) {name other : String} (different : other ≠ name)
    (newValue : Int) : (watermarks.advance name newValue).stored other = watermarks.stored other := by
  rw [Watermarks.stored, Watermarks.advance, Function.update_of_ne different, Watermarks.stored]

/-- A watermark at or past the bound stays. -/
theorem advance_reached (watermarks : Watermarks) {name : String} {newValue : Int}
    (reached : newValue ≤ watermarks.stored name) : watermarks.advance name newValue = watermarks := by
  funext other
  by_cases own : other = name
  · subst own
    have same := stored_advance_self watermarks other newValue
    rwa [max_eq_left reached] at same
  · exact stored_advance_of_ne watermarks own newValue

/-- Both watermarks moved up to the bound. -/
def Watermarks.advanceBoth (watermarks : Watermarks) (upperBound : Int) : Watermarks :=
  (watermarks.advance featuresPipeline upperBound).advance labelsPipeline upperBound

theorem advanceBoth_features (watermarks : Watermarks) (upperBound : Int) :
    (watermarks.advanceBoth upperBound).stored featuresPipeline =
      max (watermarks.stored featuresPipeline) upperBound := by
  rw [Watermarks.advanceBoth, stored_advance_of_ne _ (by decide), stored_advance_self]

theorem advanceBoth_labels (watermarks : Watermarks) (upperBound : Int) :
    (watermarks.advanceBoth upperBound).stored labelsPipeline =
      max (watermarks.stored labelsPipeline) upperBound := by
  rw [Watermarks.advanceBoth, stored_advance_self, stored_advance_of_ne _ (by decide)]

theorem advanceBoth_again (watermarks : Watermarks) (upperBound : Int) :
    (watermarks.advanceBoth upperBound).advanceBoth upperBound = watermarks.advanceBoth upperBound := by
  have featuresReached : upperBound ≤ (watermarks.advanceBoth upperBound).stored featuresPipeline :=
    (advanceBoth_features watermarks upperBound).symm ▸ le_max_right _ _
  have labelsReached : upperBound ≤ (watermarks.advanceBoth upperBound).stored labelsPipeline :=
    (advanceBoth_labels watermarks upperBound).symm ▸ le_max_right _ _
  rw [Watermarks.advanceBoth, advance_reached _ featuresReached, advance_reached _ labelsReached]

/-- What the transaction comes to when all its statements are executed. -/
def CuratedStore.upsert (s : CuratedStore) (features : List CuratedHiggsFeature) (labels : List CuratedHiggsLabel)
    (upperBound : Int) : CuratedStore where
  features := KeyedTable.insertIgnore (·.eventId) s.features features
  labels := KeyedTable.insertIgnore (·.eventId) s.labels labels
  watermarks := s.watermarks.advanceBoth upperBound

variable (batchSize : ℕ+) (s : CuratedStore) (featuresDf : List FeatureRow) (labelsDf : List LabelRow)
  (runId : String) (upperBound : Int)

/-- All the statements of the transaction, however they are cut: the state
they make, and the two counts, each the growth of its table. -/
theorem executeAll_curatedStatements :
    let executed := executeAll CuratedStatement.execute s
      (curatedStatements batchSize featuresDf labelsDf runId upperBound)
    executed.1 = s.upsert (featuresDf.map (·.curated runId)) (labelsDf.map (·.curated runId)) upperBound ∧
      s.features.length + (Upserted.total executed.2).features = executed.1.features.length ∧
      s.labels.length + (Upserted.total executed.2).labels = executed.1.labels.length := by
  obtain ⟨features, insertsFeatures, featuresCount⟩ := executeAll_inserts CuratedStatement.execute (·.eventId)
    (fun table => { s with features := table }) .insertFeatures (fun count => { features := count }) (fun _ _ => rfl)
    s.features (chunked (featuresDf.map (·.curated runId)) batchSize)
  obtain ⟨labels, insertsLabels, labelsCount⟩ := executeAll_inserts CuratedStatement.execute (·.eventId)
    (fun table => { s with
      features := KeyedTable.insertIgnore (·.eventId) s.features (featuresDf.map (·.curated runId)), labels := table })
    .insertLabels (fun count => { labels := count }) (fun _ _ => rfl)
    s.labels (chunked (labelsDf.map (·.curated runId)) batchSize)
  rw [flatten_chunked _ batchSize.pos] at insertsFeatures featuresCount insertsLabels labelsCount
  intro executed
  have all : executed = (s.upsert (featuresDf.map (·.curated runId)) (labelsDf.map (·.curated runId)) upperBound,
      features.map (fun count => { features := count }) ++ (labels.map (fun count => { labels := count }) ++
        [⟨0, 0⟩, ⟨0, 0⟩])) := by
    change executeAll _ _ _ = _
    rw [curatedStatements, executeAll_append, insertsFeatures, executeAll_append, insertsLabels]
    rfl
  rw [all]
  refine ⟨rfl, ?_, ?_⟩
  · simpa [CuratedStore.upsert, Upserted.total, Function.comp_def] using featuresCount
  · simpa [CuratedStore.upsert, Upserted.total, Function.comp_def] using labelsCount

theorem CuratedStore.upsert_updated :
    s.Updated featuresDf labelsDf runId upperBound
      (s.upsert (featuresDf.map (·.curated runId)) (labelsDf.map (·.curated runId)) upperBound) where
  features := KeyedTable.insertIgnore_firstWins _ _ _
  labels := KeyedTable.insertIgnore_firstWins _ _ _
  featuresWatermark := advanceBoth_features _ _
  labelsWatermark := advanceBoth_labels _ _
  others := fun name notFeatures notLabels => by
    rw [CuratedStore.upsert, Watermarks.advanceBoth, stored_advance_of_ne _ notLabels,
      stored_advance_of_ne _ notFeatures]

theorem CuratedStore.upsert_again (features : List CuratedHiggsFeature) (labels : List CuratedHiggsLabel) :
    (s.upsert features labels upperBound).upsert features labels upperBound = s.upsert features labels upperBound := by
  simp only [CuratedStore.upsert, KeyedTable.insertIgnore_again, advanceBoth_again]

def World.curatedStore (s : World) : CuratedStore := ⟨s.curatedFeatures, s.curatedLabels, s.watermarks⟩

/-- The step of a DAG run that updates the curated tables is this
transaction, committed, and keeps its counts. -/
theorem World.commitCurated_store (s : World) (bounds : WatermarkBounds) (extraction : Extraction) :
    let statements := curatedStatements ⟨upsertBatchSize, by decide⟩ featuresDf labelsDf runId bounds.upperBound
    (s.commitCurated runId bounds extraction featuresDf labelsDf).curatedStore =
        Ending.commits.leaves CuratedStatement.execute s.curatedStore statements ∧
      Upserted.total (Ending.commits.sees CuratedStatement.execute s.curatedStore statements) =
        ⟨(updateCuratedFeatures s.curatedFeatures featuresDf runId).2,
          (updateCuratedLabels s.curatedLabels labelsDf runId).2⟩ := by
  intro statements
  obtain ⟨made, features, labels⟩ := executeAll_curatedStatements ⟨upsertBatchSize, by decide⟩ s.curatedStore
    featuresDf labelsDf runId bounds.upperBound
  have committed : (s.commitCurated runId bounds extraction featuresDf labelsDf).curatedStore =
      (executeAll CuratedStatement.execute s.curatedStore statements).1 := by
    rw [made, World.curatedStore, World.commitCurated, updateCuratedFeatures_fst, updateCuratedLabels_fst]
    rfl
  have featuresCount := KeyedTable.insertBatches_snd (fun r : CuratedHiggsFeature => r.eventId) s.curatedFeatures
    (chunked (featuresDf.map (·.curated runId)) upsertBatchSize)
  have labelsCount := KeyedTable.insertBatches_snd (fun r : CuratedHiggsLabel => r.eventId) s.curatedLabels
    (chunked (labelsDf.map (·.curated runId)) upsertBatchSize)
  rw [← committed] at features labels
  refine ⟨committed, congr (congrArg Upserted.mk ?_) ?_⟩
  · exact Nat.add_left_cancel (features.trans featuresCount.symm)
  · exact Nat.add_left_cancel (labels.trans labelsCount.symm)

/-- The transaction leaves the frames' rows and both watermarks stored or
nothing; committed, it leaves the same for every batch size, counts what
it added and, repeated, adds nothing. -/
theorem updateCurated_all_or_nothing (ending : Ending) :
    let statements := curatedStatements batchSize featuresDf labelsDf runId upperBound
    let after := ending.leaves CuratedStatement.execute s statements
    let counts := Upserted.total (ending.sees CuratedStatement.execute s statements)
    (after = s ∨ s.Updated featuresDf labelsDf runId upperBound after) ∧
      (ending = .commits →
        s.Updated featuresDf labelsDf runId upperBound after ∧
        (∀ other : ℕ+, Ending.commits.leaves CuratedStatement.execute s
          (curatedStatements other featuresDf labelsDf runId upperBound) = after) ∧
        s.features.length + counts.features = after.features.length ∧
        s.labels.length + counts.labels = after.labels.length ∧
        Ending.commits.leaves CuratedStatement.execute after statements = after ∧
        Upserted.total (Ending.commits.sees CuratedStatement.execute after statements) = ⟨0, 0⟩) := by
  intro statements after counts
  have updated := s.upsert_updated featuresDf labelsDf runId upperBound
  obtain ⟨made, features, labels⟩ := executeAll_curatedStatements batchSize s featuresDf labelsDf runId upperBound
  constructor
  · refine (ending.leaves_all_or_nothing _ _ _).imp_right fun all => ?_
    change s.Updated featuresDf labelsDf runId upperBound (ending.leaves _ _ _)
    rw [all, made]
    exact updated
  · intro committed
    obtain ⟨remade, moreFeatures, moreLabels⟩ :=
      executeAll_curatedStatements batchSize after featuresDf labelsDf runId upperBound
    have isAfter : after = (executeAll CuratedStatement.execute s statements).1 := by
      change ending.leaves _ _ _ = _
      rw [committed]
      rfl
    have isCounts : counts = Upserted.total (executeAll CuratedStatement.execute s statements).2 := by
      change Upserted.total (ending.sees _ _ _) = _
      rw [committed]
      rfl
    have again : (executeAll CuratedStatement.execute after statements).1 = after := by
      rw [remade, isAfter, made, CuratedStore.upsert_again]
    rw [again] at moreFeatures moreLabels
    refine ⟨isAfter.trans made ▸ updated, fun other => ?_, ?_, ?_, again, ?_⟩
    · have all := (executeAll_curatedStatements other s featuresDf labelsDf runId upperBound).1
      exact all.trans (isAfter.trans made).symm
    · rw [isCounts, isAfter]
      exact features
    · rw [isCounts, isAfter]
      exact labels
    · have noFeatures := Nat.add_eq_left.mp moreFeatures
      have noLabels := Nat.add_eq_left.mp moreLabels
      exact congr (congrArg Upserted.mk noFeatures) noLabels

end Amel
