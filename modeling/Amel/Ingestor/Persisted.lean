import Amel.Ingestor.Coverage

namespace Amel

open Python (Bytes Text text)
open Python.Json (Value)
open Transition (Reach)

variable {ingestor : Ingestor} {s after : Backend} {p next : Process} {action : ProcessAction}

/-- The event ids in the landing table of a topic. -/
def Ingestor.landed (ingestor : Ingestor) (landing : Landing) (topic : String) : List Text :=
  if topic = ingestor.settings.featuresTopic then landing.features.map (text ·.eventId)
  else landing.labels.map (text ·.eventId)

/-- The message at this place is there, and if it is valid its event is in
the landing table of its topic. -/
def Ingestor.Persisted (ingestor : Ingestor) (s : Backend) (tp : TopicPartition) (offset : Nat) : Prop :=
  ∃ value, (s.log tp)[offset]? = some value ∧
    ∀ event, ingestor.Accepts tp.topic value event → event.eventId ∈ ingestor.landed s.landing tp.topic

/-- Every landing row is an accepted message of its table's topic that the
columns hold, read at the partition and offset the row names. -/
structure Ingestor.Sourced (ingestor : Ingestor) (s : Backend) : Prop where
  features : ∀ row ∈ s.landing.features, ∃ value event,
    (s.log ⟨ingestor.settings.featuresTopic, row.kafkaPartition⟩)[row.kafkaOffset]? = some value ∧
      ingestor.Accepts ingestor.settings.featuresTopic value (.feature event) ∧
      (Event.feature event).storable ingestor.pydantic.floats row.kafkaPartition row.kafkaOffset = true ∧
      row = Row.toFeature ⟨event, row.kafkaPartition, row.kafkaOffset⟩ row.ingestedAt
  labels : ∀ row ∈ s.landing.labels, ∃ value event,
    (s.log ⟨ingestor.settings.labelsTopic, row.kafkaPartition⟩)[row.kafkaOffset]? = some value ∧
      ingestor.Accepts ingestor.settings.labelsTopic value (.label event) ∧
      (Event.label event).storable ingestor.pydantic.floats row.kafkaPartition row.kafkaOffset = true ∧
      row = Row.toLabel ⟨event, row.kafkaPartition, row.kafkaOffset⟩ row.ingestedAt

theorem Ingestor.landed_grows {before later : Landing} (grows : before.Extends later) {topic : String} {eventId : Text}
    (member : eventId ∈ ingestor.landed before topic) : eventId ∈ ingestor.landed later topic := by
  unfold landed at member ⊢
  split
  · rename_i features
    rw [if_pos features] at member
    exact (grows.1.map _).subset member
  · rename_i labels
    rw [if_neg labels] at member
    exact (grows.2.map _).subset member

theorem Ingestor.Persisted.grows {tp : TopicPartition} {offset : Nat} (persisted : ingestor.Persisted s tp offset)
    (grows : s.Grows after) : ingestor.Persisted after tp offset := by
  obtain ⟨value, found, landed⟩ := persisted
  exact ⟨value, grows.message found, fun event accepts => landed_grows grows.landing (landed event accepts)⟩

/-- What a process is about to write comes from accepted messages. -/
theorem Process.Staged.row {work : Batch} {attempt : Nat} {row : Row Event} (staged : p.Staged ingestor)
    (polled : p.Polled ingestor s) (writing : p.phase = .writing work attempt) (member : row ∈ work.rows) : ∃ value,
      (s.log ⟨row.event.topic ingestor.settings, row.kafkaPartition⟩)[row.kafkaOffset]? = some value ∧
        ingestor.Accepts (row.event.topic ingestor.settings) value row.event := by
  obtain ⟨outside, finished⟩ := staged _ _ writing
  rw [← (Ingestor.processMessages_finished_iff.mp finished).2] at member
  obtain ⟨msg, inBatch, routed⟩ := Ingestor.mem_absorbAll_rows.mp member
  obtain ⟨⟨topic, partition⟩, offset, value, rfl, subscribed, found⟩ := polled msg inBatch
  obtain ⟨accepts, ofPartition, ofOffset⟩ := Ingestor.row_route_iff.mp routed
  rw [← accepts.topic subscribed, ofPartition, ofOffset]
  exact ⟨value, found, accepts⟩

/-- Once the staged rows are written every accepted message of the batch
is in its table. -/
theorem Process.Staged.lands {work : Batch} {attempt : Nat} {tp : TopicPartition} {offset : Nat}
    {value : Option Bytes} {event : Event} {now : Int} (staged : p.Staged ingestor)
    (writing : p.phase = .writing work attempt) (takes : work.storable ingestor.pydantic.floats now = true)
    (held : Message.delivered tp offset value ∈ p.batch) (accepts : ingestor.Accepts tp.topic value event) :
    event.eventId ∈ ingestor.landed (work.write now s.landing) tp.topic := by
  obtain ⟨outside, finished⟩ := staged _ _ writing
  have made := (Ingestor.processMessages_finished_iff.mp finished).2
  have routed := Ingestor.route_of_accepts accepts outside offset
  have inRows : (⟨event, tp.partition, offset⟩ : Row Event) ∈ work.rows := by
    rw [← made]
    exact Ingestor.mem_absorbAll_rows.mpr ⟨_, held, Ingestor.row_route_iff.mpr ⟨accepts, rfl, rfl⟩⟩
  rw [← Event.stored_eventId ((Batch.storable_iff.mp takes).2 _ inRows)]
  cases event with
  | feature event =>
    have member : (⟨event, tp.partition, offset⟩ : Row FeatureEvent) ∈ work.featuresRows := by
      rw [← made, Ingestor.absorbAll_featuresRows, List.nil_append, List.mem_flatMap]
      exact ⟨_, held, by rw [routed]; exact List.mem_singleton_self _⟩
    obtain ⟨r, inTable, same⟩ := List.mem_map.mp (KeyedTable.key_mem_insertIgnore (·.eventId)
      (List.mem_map_of_mem (f := (·.toFeature now)) member))
    rw [Ingestor.landed, if_pos (accepts.class_of_topic.mp ⟨event, rfl⟩)]
    exact List.mem_map.mpr ⟨r, inTable, congrArg text same⟩
  | label event =>
    have member : (⟨event, tp.partition, offset⟩ : Row LabelEvent) ∈ work.labelsRows := by
      rw [← made, Ingestor.absorbAll_labelsRows, List.nil_append, List.mem_flatMap]
      exact ⟨_, held, by rw [routed]; exact List.mem_singleton_self _⟩
    have notFeatures : tp.topic ≠ ingestor.settings.featuresTopic := fun features => by
      obtain ⟨_, impossible⟩ := accepts.class_of_topic.mpr features
      cases impossible
    obtain ⟨r, inTable, same⟩ := List.mem_map.mp (KeyedTable.key_mem_insertIgnore (·.eventId)
      (List.mem_map_of_mem (f := (·.toLabel now)) member))
    rw [Ingestor.landed, if_neg notFeatures]
    exact List.mem_map.mpr ⟨r, inTable, congrArg text same⟩

/-- A row of either table was there before or is a row that the process has
staged. -/
theorem Ingestor.ProcessStep.proposed {Landed Model Key : Type} [DecidableEq Key] {key : Landed → Key}
    {table : Landing → List Landed} {rows : Batch → List (Row Model)} {landedAt : Int → Row Model → Landed}
    (writes : ∀ (work : Batch) now landing, table (work.write now landing) =
      KeyedTable.insertIgnore key (table landing) ((rows work).map (landedAt now)))
    (taken : ingestor.ProcessStep s p action after next) {row : Landed} (member : row ∈ table after.landing) :
    row ∈ table s.landing ∨ ∃ work attempt now read, p.phase = .writing work attempt ∧
      work.storable ingestor.pydantic.floats now = true ∧ read ∈ rows work ∧ row = landedAt now read := by
  rcases taken.landing with same | ⟨work, attempt, now, writing, takes, written⟩
  · exact Or.inl (same ▸ member)
  · rw [written, writes] at member
    refine (KeyedTable.mem_insertIgnore _ member).imp_right fun inRows => ?_
    obtain ⟨read, inWork, rfl⟩ := List.mem_map.mp inRows
    exact ⟨work, attempt, now, read, writing, takes, inWork, rfl⟩

theorem Ingestor.Sourced.step (sourced : ingestor.Sourced s) (staged : p.Staged ingestor)
    (polled : p.Polled ingestor s) (taken : ingestor.ProcessStep s p action after next) : ingestor.Sourced after := by
  have grows := taken.grows
  have features (work : Batch) (now : Int) (landing : Landing) : (work.write now landing).features =
    KeyedTable.insertIgnore (·.eventId) landing.features (work.featuresRows.map (·.toFeature now)) := rfl
  have labels (work : Batch) (now : Int) (landing : Landing) : (work.write now landing).labels =
    KeyedTable.insertIgnore (·.eventId) landing.labels (work.labelsRows.map (·.toLabel now)) := rfl
  refine ⟨fun row member => ?_, fun row member => ?_⟩
  · rcases taken.proposed features member with old | ⟨work, attempt, now, read, writing, takes, inWork, rfl⟩
    · obtain ⟨value, event, found, accepts, rest⟩ := sourced.features row old
      exact ⟨value, event, grows.message found, accepts, rest⟩
    · have inRows := Batch.feature_mem_rows inWork
      obtain ⟨value, found, accepts⟩ := staged.row polled writing inRows
      exact ⟨value, read.event, grows.message found, accepts, (Batch.storable_iff.mp takes).2 _ inRows, rfl⟩
  · rcases taken.proposed labels member with old | ⟨work, attempt, now, read, writing, takes, inWork, rfl⟩
    · obtain ⟨value, event, found, accepts, rest⟩ := sourced.labels row old
      exact ⟨value, event, grows.message found, accepts, rest⟩
    · have inRows := Batch.label_mem_rows inWork
      obtain ⟨value, found, accepts⟩ := staged.row polled writing inRows
      exact ⟨value, read.event, grows.message found, accepts, (Batch.storable_iff.mp takes).2 _ inRows, rfl⟩

/-- What holds of the backend in every reachable state. -/
structure Ingestor.Ingested (ingestor : Ingestor) (s : Backend) : Prop where
  keyed : s.landing.Keyed
  sourced : ingestor.Sourced s
  committed : ∀ tp offset, offset < s.committed tp → ingestor.Persisted s tp offset

/-- What holds of each process beside it. -/
structure Process.Ingesting (ingestor : Ingestor) (s : Backend) (p : Process) : Prop where
  assigned : p.Assigned ingestor
  polled : p.Polled ingestor s
  staged : p.Staged ingestor
  covered : p.Covered (ingestor.Persisted s)

theorem Process.Ingesting.grows (ingesting : p.Ingesting ingestor s) (grows : s.Grows after) :
    p.Ingesting ingestor after :=
  ⟨ingesting.assigned, ingesting.polled.grows grows, ingesting.staged,
    ingesting.covered.mono fun _ _ persisted => persisted.grows grows⟩

theorem Ingestor.Ingested.append (ingested : ingestor.Ingested s) (tp : TopicPartition) (value : Option Bytes) :
    ingestor.Ingested (s.append tp value) := by
  have grows := s.grows_append tp value
  refine ⟨ingested.keyed, ⟨fun row member => ?_, fun row member => ?_⟩, fun key offset below =>
    (ingested.committed key offset below).grows grows⟩
  · obtain ⟨value, event, found, rest⟩ := ingested.sourced.features row member
    exact ⟨value, event, grows.message found, rest⟩
  · obtain ⟨value, event, found, rest⟩ := ingested.sourced.labels row member
    exact ⟨value, event, grows.message found, rest⟩

/-- A write that ends has put every valid message in hand into its table. -/
theorem Process.Ingesting.persists (ingesting : p.Ingesting ingestor s)
    (taken : ingestor.ProcessStep s p action after next) {work : Batch} {attempt : Nat}
    (writing : p.phase = .writing work attempt) (committing : next.phase = .committing work)
    {tp : TopicPartition} {offset : Nat} (held : p.Holds tp offset) : ingestor.Persisted after tp offset := by
  obtain ⟨value, member, -, found⟩ := ingesting.polled.held held
  refine ⟨value, taken.grows.message found, fun event accepts => ?_⟩
  cases taken with
  | @skipWrite staged _ stillWriting noFeatures noLabels =>
    cases writing.symm.trans stillWriting
    have takes := Batch.storable_nothing ingestor.pydantic.floats 0 noFeatures noLabels
    have lands := ingesting.staged.lands (s := s) writing takes member accepts
    rw [Batch.write, noFeatures, noLabels] at lands
    exact lands
  | write stillWriting _ takes =>
    cases writing.symm.trans stillWriting
    exact ingesting.staged.lands writing takes member accepts
  | start => cases committing
  | process => cases committing
  | raise => cases committing
  | writeRetried => cases committing
  | writeExhausted => cases committing
  | commit => cases committing
  | crash => cases committing
  | _ => cases writing.symm.trans committing

theorem Ingestor.Ingested.step (ingested : ingestor.Ingested s) (ingesting : p.Ingesting ingestor s)
    (taken : ingestor.ProcessStep s p action after next) :
    ingestor.Ingested after ∧ next.Ingesting ingestor after := by
  have grows := taken.grows
  have committed (tp : TopicPartition) (offset : Nat) (below : offset < s.committed tp) :
      ingestor.Persisted after tp offset := (ingested.committed tp offset below).grows grows
  refine ⟨⟨?_, ingested.sourced.step ingesting.staged ingesting.polled taken, fun tp offset below => ?_⟩,
    ingesting.assigned.step taken, ingesting.polled.step ingesting.assigned taken, ingesting.staged.step taken,
    ingesting.covered.step ingesting.staged taken committed (fun _ _ _ _ persisted => persisted.grows grows)
      fun work attempt writing committing tp offset held => ingesting.persists taken writing committing held⟩
  · rcases taken.landing with same | ⟨work, attempt, now, -, -, written⟩
    · exact same ▸ ingested.keyed
    · exact written ▸ ingested.keyed.insert _ _
  · rcases taken.committed tp with same | ⟨work, accepted, -, committing, subset, member⟩
    · exact committed tp offset (same ▸ below)
    · exact (ingesting.covered.offsets committing (subset member) below).grows grows

theorem Ingestor.ingested_of_reach {group : Group} (reach : Reach ingestor.Step .initial group) :
    ingestor.Ingested group.shared ∧ ∀ id, (group.processes id).Ingesting ingestor group.shared := by
  have base : ingestor.Ingested Group.initial.shared ∧
      ∀ id, (Group.initial.processes id).Ingesting ingestor Group.initial.shared :=
    ⟨⟨⟨List.nodup_nil, List.nodup_nil⟩, ⟨nofun, nofun⟩, nofun⟩,
      fun _ => ⟨nofun, nofun, nofun, .fresh (fun _ => rfl) rfl nofun⟩⟩
  refine Fleet.invariant ingestor.Ingested (fun _ s p => p.Ingesting ingestor s) reach.guardTrivially base ?_ ?_
  · rintro before ⟨tp, value⟩ after - rfl ingested each
    exact ⟨ingested.append tp value, fun id => (each id).grows (before.shared.grows_append tp value)⟩
  · rintro before id action after next - taken ingested each
    obtain ⟨later, renewed⟩ := ingested.step (each id) taken
    exact ⟨later, renewed, fun other _ => (each other).grows taken.grows⟩

/-- Ingest loses nothing and repeats nothing. In every reachable state each
landing table has at most one row for an event id, committed rows stay as
they are for ever, each row is an accepted message of its table's topic,
and every accepted message below its partition's committed offset has its
event in its topic's table. -/
theorem Ingestor.no_loss_no_duplication {group : Group} (reach : Reach ingestor.Step .initial group) :
    group.shared.landing.Keyed ∧
      (∀ later, Reach ingestor.Step group later → group.shared.landing.Extends later.shared.landing) ∧
      ingestor.Sourced group.shared ∧
      ∀ tp offset value event, (group.shared.log tp)[offset]? = some value →
        ingestor.Accepts tp.topic value event → offset < group.shared.committed tp →
        event.eventId ∈ ingestor.landed group.shared.landing tp.topic := by
  obtain ⟨ingested, -⟩ := ingested_of_reach reach
  refine ⟨ingested.keyed, fun later onwards => ?_, ingested.sourced,
    fun tp offset value event found accepts below => ?_⟩
  · exact onwards.relates (fun a b => a.shared.landing.Extends b.shared.landing)
      (fun _ => Landing.Extends.refl _) Landing.Extends.trans fun _ _ _ taken => taken.grows.landing
  · obtain ⟨stored, there, landed⟩ := ingested.committed tp offset below
    cases there.symm.trans found
    exact landed event accepts

/-- A label message as the simulator publishes it. -/
def publishedLabel : Bytes :=
  ("\x7b\"event_id\": \"label-higgs-000000001\", \"entity_id\": \"higgs-000000001\", " ++
    "\"target\": 1, \"label_timestamp\": \"2026-01-01T00:00:00Z\"\x7d").toList.map fun c => UInt8.ofNat c.toNat

def labelHiggs1 : LabelEvent where
  eventId := text "label-higgs-000000001"
  entityId := text "higgs-000000001"
  target := 1
  labelTimestamp := ⟨1767225600000000, some 0⟩

/-- `model_validate` on that message; everything else is refused here. -/
def oneLabelPydantic : Pydantic where
  featureEvent _ := .error 1
  labelEvent value := match value with
    | .dict [(_, .str eventId), (_, .str entityId), (_, .int target), (_, .str stamp)] =>
      if stamp = text "2026-01-01T00:00:00Z" then
        .ok ⟨eventId, entityId, target, ⟨1767225600000000, some 0⟩, text labelSchemaVersion⟩
      else .error 1
    | _ => .error 1

def oneLabelIngestor : Ingestor := ⟨{}, oneLabelPydantic, ⟨1000, 4300⟩⟩

def labels0 : TopicPartition := ⟨"higgs.labels.v1", 0⟩

theorem oneLabel_accepted : oneLabelIngestor.Accepts labels0.topic (some publishedLabel) (.label labelHiggs1) := by
  unfold Ingestor.Accepts
  decide +kernel

/-- A run that reads one valid label, writes it and commits its offset. -/
theorem Ingestor.published_label_lands : ∃ group, Reach oneLabelIngestor.Step .initial group ∧
    group.shared.committed labels0 = 1 ∧ group.shared.landing.Keyed ∧
    text "label-higgs-000000001" ∈ oneLabelIngestor.landed group.shared.landing labels0.topic := by
  let outside : Outside := ⟨fun _ => true, fun _ => 0⟩
  let row : Row LabelEvent := ⟨labelHiggs1, 0, 0⟩
  have processed : oneLabelIngestor.processMessages outside {} [.delivered labels0 0 (some publishedLabel)] =
      (⟨[], [row], [(labels0, 0)], []⟩, none) := by
    have accepted : oneLabelIngestor.validate "higgs.labels.v1" (some publishedLabel) =
        .ok (.ok (.label labelHiggs1)) := oneLabel_accepted
    simp only [Ingestor.processMessages, Ingestor.route, Message.delivered, labels0, accepted]
    rfl
  have started : Reach oneLabelIngestor.Step .initial _ :=
    Reach.next (.next .refl (.inl (labels0, some publishedLabel)) (.environment rfl))
      (.inr (0, .start)) (.process (.start rfl))
  have polled : Reach oneLabelIngestor.Step .initial _ :=
    (started.next (.inr (0, .assign labels0)) (.process (.assign (by simp) (Or.inr rfl)))).next
      (.inr (0, .poll labels0)) (.process (.poll rfl (by decide) (by decide) rfl rfl))
  have written : Reach oneLabelIngestor.Step .initial _ :=
    (polled.next (.inr (0, .process outside)) (.process (.process rfl (by decide) processed))).next
      (.inr (0, .write 0)) (.process (.write rfl (by simp [row]) (by decide)))
  have reach := written.next (.inr (0, .commit [(labels0, 1)])) (.process (.commit rfl (by decide)))
  obtain ⟨keyed, -, -, covered⟩ := Ingestor.no_loss_no_duplication reach
  exact ⟨_, reach, rfl, keyed, covered labels0 0 _ _ rfl oneLabel_accepted (by decide)⟩

end Amel
