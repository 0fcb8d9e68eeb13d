import Amel.Ingestor.Accounting
import Amel.Ingestor.Stall
import Amel.Pipeline.CuratedUpdate
import Amel.Simulator.Wire

namespace Amel

def CuratedHiggsFeature.bound (r : CuratedHiggsFeature) : BoundRow :=
  [("event_id", .text r.eventId), ("entity_id", .text r.entityId), ("event_timestamp", .timestamp r.eventTimestamp),
    ("schema_version", .text r.schemaVersion), ("features", .json r.features), ("source_run_id", .text r.sourceRunId)]

def CuratedHiggsLabel.bound (r : CuratedHiggsLabel) : BoundRow :=
  [("event_id", .text r.eventId), ("entity_id", .text r.entityId), ("target", .integer r.target),
    ("label_timestamp", .timestamp r.labelTimestamp), ("schema_version", .text r.schemaVersion),
    ("source_run_id", .text r.sourceRunId)]

def CuratedTrainingRecord.bound (r : CuratedTrainingRecord) : BoundRow :=
  [("entity_id", .text r.entityId), ("feature_event_id", .text r.featureEventId),
    ("label_event_id", .text r.labelEventId), ("event_timestamp", .timestamp r.eventTimestamp),
    ("features", .json r.features), ("target", .integer r.target), ("schema_version", .text r.schemaVersion),
    ("source_run_id", .text r.sourceRunId)]

/-- The rows of an upsert; the statement of a watermark has none. -/
def CuratedStatement.boundRows : CuratedStatement → List BoundRow
  | insertFeatures batch => batch.map (·.bound)
  | insertLabels batch => batch.map (·.bound)
  | advanceWatermark _ _ => []

/-- One turn of the `while` of `_poll_batch`: the time since it began, and
what `poll` would return, a message, or nothing after a timeout or an error. -/
structure Poll where
  elapsed : ℚ
  result : Option Message

/-- `_poll_batch`, turn after turn until the batch is full or the deadline over. -/
def pollBatch (pace : PaceSettings) (batch : List Message) : List Poll → List Message
  | [] => batch
  | poll :: rest =>
    if (batch.length : Int) < pace.batchSize ∧ poll.elapsed < pace.batchTimeoutSeconds then
      pollBatch pace (batch ++ poll.result.toList) rest
    else batch

/-- Every multi-row INSERT stays within the limit: those of a batch of the
ingestor, whatever is polled, and those of the pipeline, whatever it is to insert. -/
structure InsertsFit (ingestor : Ingestor) (pace : PaceSettings) : Prop where
  landing : ∀ (polls : List Poll) (outside : Outside) (work : Batch) (now : Int),
    (∀ poll ∈ polls, 0 ≤ poll.elapsed) →
    ingestor.processMessages outside {} (pollBatch pace [] polls) = (work, none) →
      ∀ statement ∈ work.statements now, (bindParameters statement.boundRows).length ≤ maxBindParameters
  curated : ∀ (featuresDf : List FeatureRow) (labelsDf : List LabelRow) (runId : String) (upperBound : Int),
    ∀ statement ∈ curatedStatements ⟨upsertBatchSize, by decide⟩ featuresDf labelsDf runId upperBound,
      (bindParameters statement.boundRows).length ≤ maxBindParameters
  training : ∀ df : List CuratedTrainingRecord, ∀ batch ∈ chunked df upsertBatchSize,
    (bindParameters (batch.map (·.bound))).length ≤ maxBindParameters

theorem length_of_mem_chunked {Row : Type} {rows batch : List Row} {size : Nat} (member : batch ∈ chunked rows size) :
    batch.length ≤ size := by
  obtain ⟨i, _, rfl⟩ := List.mem_map.mp member
  exact List.length_take_le ..

/-- A chunk of rows that are not wide fits. -/
theorem chunk_fits {Row : Type} {bound : Row → BoundRow} (width : Nat) {rows batch : List Row}
    (wide : ∀ row, (bound row).length = width) (narrow : width ≤ 32) (member : batch ∈ chunked rows upsertBatchSize) :
    (bindParameters (batch.map bound)).length ≤ maxBindParameters := by
  have few := length_of_mem_chunked member
  rw [length_bindParameters width batch wide]
  calc batch.length * width ≤ 2000 * 32 := Nat.mul_le_mul few narrow
    _ ≤ maxBindParameters := by decide

theorem pollBatch_length_le (pace : PaceSettings) (batch : List Message) (polls : List Poll)
    (within : batch.length ≤ pace.batchSize.toNat) :
    (pollBatch pace batch polls).length ≤ pace.batchSize.toNat := by
  induction polls generalizing batch with
  | nil => exact within
  | cons poll rest ih =>
    unfold pollBatch
    split
    · rename_i room
      refine ih _ ?_
      cases poll.result with
      | none => simpa using within
      | some msg =>
        rw [List.length_append, Option.toList_some, List.length_singleton]
        omega
    · exact within

/-- With a deadline that is over from the start nothing is polled. -/
theorem pollBatch_late {pace : PaceSettings} (late : pace.batchTimeoutSeconds ≤ 0) (batch : List Message)
    {polls : List Poll} (forwards : ∀ poll ∈ polls, 0 ≤ poll.elapsed) : pollBatch pace batch polls = batch := by
  cases polls with
  | nil => rfl
  | cons poll rest =>
    exact if_neg fun goesOn => absurd goesOn.2 (not_lt.mpr (late.trans (forwards poll List.mem_cons_self)))

/-- Calls that return messages at once fill the batch up to its size. -/
theorem pollBatch_full {pace : PaceSettings} (inTime : 0 < pace.batchTimeoutSeconds) (batch messages : List Message)
    (room : (batch.length : Int) + messages.length ≤ pace.batchSize) :
    pollBatch pace batch (messages.map fun msg => ⟨0, some msg⟩) = batch ++ messages := by
  induction messages generalizing batch with
  | nil => simp [pollBatch]
  | cons msg rest ih =>
    rw [List.length_cons] at room
    have more : ((batch ++ (some msg).toList).length : Int) + rest.length ≤ pace.batchSize := by
      rw [List.length_append, Option.toList_some, List.length_singleton]
      omega
    rw [List.map_cons, pollBatch, if_pos ⟨by omega, inTime⟩, ih _ more, Option.toList_some, List.append_assoc,
      List.singleton_append]

/-- The rows of a batch are at most its messages. -/
theorem processed_rows_le {ingestor : Ingestor} {outside : Outside} {work : Batch} {batch : List Message}
    (processed : ingestor.processMessages outside {} batch = (work, none)) :
    work.featuresRows.length ≤ batch.length ∧ work.labelsRows.length ≤ batch.length := by
  obtain ⟨_, rfl⟩ := Ingestor.processMessages_finished_iff.mp processed
  rw [Ingestor.absorbAll_featuresRows, Ingestor.absorbAll_labelsRows, List.nil_append, List.nil_append]
  have few {Row : Type} (row : Message → Option Row) (batch : List Message) :
      (batch.flatMap fun msg => (row msg).toList).length ≤ batch.length := by
    induction batch with
    | nil => simp
    | cons msg rest ih =>
      have one := Option.length_toList_le (o := row msg)
      rw [List.flatMap_cons, List.length_append, List.length_cons]
      omega
  exact ⟨few _ batch, few _ batch⟩

/-- The INSERTs of a batch are within the limit exactly when those of its statements are. -/
theorem statements_fit_iff {work : Batch} {now : Int} :
    (∀ statement ∈ work.statements now, (bindParameters statement.boundRows).length ≤ maxBindParameters) ↔
      work.featuresRows.length * 9 ≤ maxBindParameters ∧ work.labelsRows.length * 7 ≤ maxBindParameters := by
  rw [← Batch.withinLimit_iff now, Batch.withinLimit, List.all_eq_true]
  simp only [decide_eq_true_eq]

theorem pipeline_fits (featuresDf : List FeatureRow) (labelsDf : List LabelRow) (runId : String) (upperBound : Int) :
    ∀ statement ∈ curatedStatements ⟨upsertBatchSize, by decide⟩ featuresDf labelsDf runId upperBound,
      (bindParameters statement.boundRows).length ≤ maxBindParameters := by
  intro statement member
  unfold curatedStatements at member
  rcases List.mem_append.mp member with inFeatures | others
  · obtain ⟨batch, chunk, rfl⟩ := List.mem_map.mp inFeatures
    exact chunk_fits 6 (fun _ => rfl) (by decide) chunk
  · rcases List.mem_append.mp others with inLabels | watermarks
    · obtain ⟨batch, chunk, rfl⟩ := List.mem_map.mp inLabels
      exact chunk_fits 6 (fun _ => rfl) (by decide) chunk
    · rcases List.mem_pair.mp watermarks with rfl | rfl
      · exact Nat.zero_le _
      · exact Nat.zero_le _

theorem flatMap_replicate {Row : Type} {take : Message → Option Row} {msg : Message} {row : Row} {count : Nat}
    (found : take msg = some row) :
    ((List.replicate count msg).flatMap fun m => (take m).toList) = List.replicate count row := by
  induction count with
  | zero => rfl
  | succ count ih =>
    rw [List.replicate_succ, List.flatMap_cons, ih, found, List.replicate_succ]
    rfl

/-- A batch that is filled with one accepted feature event binds 9 parameters for each message. -/
theorem copies_fit {ingestor : Ingestor} {pace : PaceSettings} (fits : InsertsFit ingestor pace)
    {raw : Option Python.Bytes} {event : FeatureEvent}
    (accepts : ingestor.Accepts ingestor.settings.featuresTopic raw (.feature event))
    (inTime : 0 < pace.batchTimeoutSeconds) (count : Nat)
    (room : (count : Int) + 1 ≤ pace.batchSize) : (count + 1) * 9 ≤ maxBindParameters := by
  let outside : Outside := ⟨fun _ => true, fun _ => 0⟩
  let msg := Message.delivered ⟨ingestor.settings.featuresTopic, 0⟩ 0 raw
  let messages := List.replicate (count + 1) msg
  have routed : ingestor.route outside msg = (Event.feature event).route ⟨ingestor.settings.featuresTopic, 0⟩ 0 :=
    Ingestor.route_of_accepts accepts outside 0
  have row : (ingestor.route outside msg).featuresRow = some ⟨event, 0, 0⟩ := by rw [routed]; rfl
  have quiet : (ingestor.route outside msg).error = none := by rw [routed]; rfl
  have polled : pollBatch pace [] (messages.map fun msg => ⟨0, some msg⟩) = messages :=
    pollBatch_full inTime [] _ (by rw [List.length_nil, List.length_replicate]; omega)
  have forwards : ∀ poll ∈ messages.map fun msg => (⟨0, some msg⟩ : Poll), 0 ≤ poll.elapsed := by
    intro poll member
    obtain ⟨_, -, rfl⟩ := List.mem_map.mp member
    exact le_rfl
  have processed : ingestor.processMessages outside {} messages = (ingestor.absorbAll outside {} messages, none) :=
    Ingestor.processMessages_finished_iff.mpr ⟨fun found member => List.eq_of_mem_replicate member ▸ quiet, rfl⟩
  have rows : (ingestor.absorbAll outside {} messages).featuresRows = List.replicate (count + 1) ⟨event, 0, 0⟩ := by
    rw [Ingestor.absorbAll_featuresRows, List.nil_append, flatMap_replicate row]
  have fit := fits.landing _ outside _ 0 forwards (by rw [polled, processed])
  rw [statements_fit_iff, rows, List.length_replicate] at fit
  exact fit.1

/-- Where some feature event is accepted, every statement fits exactly when a
batch has at most 7281 messages or its deadline is over before the first poll. -/
theorem insertsFit_iff (ingestor : Ingestor) (pace : PaceSettings)
    (accepted : ∃ raw event, ingestor.Accepts ingestor.settings.featuresTopic raw (.feature event)) :
    InsertsFit ingestor pace ↔ pace.batchSize ≤ 7281 ∨ pace.batchTimeoutSeconds ≤ 0 := by
  constructor
  · intro fits
    obtain ⟨raw, event, accepts⟩ := accepted
    by_contra neither
    obtain ⟨large, inTime⟩ := not_or.mp neither
    have beyond := copies_fit fits accepts (not_le.mp inTime) 7281 (by omega)
    exact absurd beyond (by decide)
  · intro bounded
    refine ⟨fun polls outside work now forwards processed => ?_, pipeline_fits, fun df batch member => ?_⟩
    · obtain ⟨features, labels⟩ := processed_rows_le processed
      have few : (pollBatch pace [] polls).length ≤ 7281 := by
        rcases bounded with small | late
        · have within := pollBatch_length_le pace [] polls (Nat.zero_le _)
          omega
        · rw [pollBatch_late late [] forwards]
          exact Nat.zero_le _
      rw [statements_fit_iff, maxBindParameters]
      omega
    · exact chunk_fits 8 (fun _ => rfl) (by decide) member

theorem default_inserts_fit : InsertsFit ⟨{}, sampleCoercions.pydantic, ⟨1000, 4300⟩⟩ {} :=
  (insertsFit_iff _ _ (sample_accepted {})).mpr (Or.inl (by decide))

/-- With room for 10000 messages, a backlog of 7282 feature events is too much. -/
theorem large_batch_overflows :
    ¬InsertsFit ⟨{}, sampleCoercions.pydantic, ⟨1000, 4300⟩⟩ { batchSize := 10000 } := by
  intro fits
  obtain ⟨raw, event, accepts⟩ := sample_accepted {}
  have beyond := copies_fit fits accepts (by decide) 7281 (by decide)
  exact absurd beyond (by decide)

end Amel
