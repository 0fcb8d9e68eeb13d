import Amel.Ingestor.Coverage

namespace Amel

open Python (Bytes b64encode)
open Transition (Reach Guarded)

variable {ingestor : Ingestor} {s after : Backend} {p next : Process} {action : ProcessAction}

/-- The record holds the message at this place, in the DLQ topic that goes
with the message's topic. -/
structure DlqRecord.Carries (record : DlqRecord) (settings : IngestorSettings) (tp : TopicPartition) (offset : Nat)
    (value : Option Bytes) : Prop where
  dlqTopic : settings.dlqTopicFor tp.topic = some record.dlqTopic
  originalTopic : record.originalTopic = tp.topic
  originalPartition : record.originalPartition = tp.partition
  originalOffset : record.originalOffset = offset
  rawValue : record.rawValueBase64 = b64encode (value.getD [])

/-- Two records of one message. Their reason and time may differ. -/
def DlqRecord.Copies (copy record : DlqRecord) : Prop :=
  copy.dlqTopic = record.dlqTopic ∧ copy.originalTopic = record.originalTopic ∧
    copy.originalPartition = record.originalPartition ∧ copy.originalOffset = record.originalOffset ∧
    copy.rawValueBase64 = record.rawValueBase64

theorem DlqRecord.Carries.copy {copy record : DlqRecord} {settings : IngestorSettings} {tp : TopicPartition}
    {offset : Nat} {value : Option Bytes} (carries : record.Carries settings tp offset value)
    (copies : copy.Copies record) : copy.Carries settings tp offset value := by
  obtain ⟨dlqTopic, topic, partition, place, raw⟩ := copies
  exact ⟨dlqTopic ▸ carries.dlqTopic, topic ▸ carries.originalTopic, partition ▸ carries.originalPartition,
    place ▸ carries.originalOffset, raw ▸ carries.rawValue⟩

/-- The message at this place is there, and if it is rejected one of the
records carries it. -/
def Ingestor.Recorded (ingestor : Ingestor) (s : Backend) (records : List DlqRecord) (tp : TopicPartition)
    (offset : Nat) : Prop :=
  ∃ value, (s.log tp)[offset]? = some value ∧ ∀ reason, ingestor.Rejects tp.topic value reason →
    ∃ record ∈ records, record.Carries ingestor.settings tp offset value

/-- Every rejected message below its partition's committed offset is in the
DLQ topic. -/
def Ingestor.DeadLettersDurable (ingestor : Ingestor) (s : Backend) : Prop :=
  ∀ tp offset value reason, (s.log tp)[offset]? = some value → ingestor.Rejects tp.topic value reason →
    offset < s.committed tp → ∃ record ∈ s.dlq, record.Carries ingestor.settings tp offset value

/-- The records of a process wherever they are: in the DLQ topics, queued
in its producer, or reported as not delivered. -/
def Process.records (s : Backend) (p : Process) : List DlqRecord := s.dlq ++ (p.outbox ++ p.undelivered)

theorem Ingestor.Recorded.grows {records more : List DlqRecord} {tp : TopicPartition} {offset : Nat}
    (recorded : ingestor.Recorded s records tp offset) (grows : s.Grows after) (subset : records ⊆ more) :
    ingestor.Recorded after more tp offset := by
  obtain ⟨value, found, carried⟩ := recorded
  refine ⟨value, grows.message found, fun reason rejects => ?_⟩
  obtain ⟨record, member, carries⟩ := carried reason rejects
  exact ⟨record, subset member, carries⟩

/-- While a process runs no record of it disappears. -/
theorem Ingestor.ProcessStep.records (taken : ingestor.ProcessStep s p action after next)
    (up : p.phase ≠ .down) (stillUp : next.phase ≠ .down) : p.records s ⊆ next.records after := by
  intro record member
  simp only [Process.records, List.mem_append] at member ⊢
  cases taken with
  | start down => exact absurd down up
  | crash => exact absurd rfl stillUp
  | process => simp only [List.mem_append]; tauto
  | raise => simp only [List.mem_append]; tauto
  | @deliver sent =>
    by_cases same : record = sent
    · exact Or.inl (List.mem_append.mpr (Or.inr (List.mem_singleton.mpr same)))
    · rw [List.mem_erase_of_ne same, List.mem_append]
      tauto
  | @deliveryFails sent =>
    by_cases same : record = sent
    · exact Or.inr (Or.inr (List.mem_append.mpr (Or.inr (List.mem_singleton.mpr same))))
    · rw [List.mem_erase_of_ne same, List.mem_append]
      tauto
  | _ => exact member

/-- The records of the batch being written were handed over. -/
def Process.Handed (s : Backend) (p : Process) : Prop :=
  ∀ work attempt, p.phase = .writing work attempt → work.sends ⊆ p.records s

theorem Process.Handed.step (handed : p.Handed s) (taken : ingestor.ProcessStep s p action after next) :
    next.Handed after := by
  intro work attempt writing
  have carried {before : Nat} (was : p.phase = .writing work before) : work.sends ⊆ next.records after :=
    List.Subset.trans (handed work before was) (taken.records (by simp [was]) (by simp [writing]))
  cases taken with
  | process =>
    cases writing
    intro record member
    simp only [Process.records, List.mem_append]
    tauto
  | assign => exact carried writing
  | revoke => exact carried writing
  | poll polling => cases polling.symm.trans writing
  | deliver => exact carried writing
  | deliveryFails => exact carried writing
  | writeRetried was => cases writing; exact carried was
  | _ => cases writing

/-- Every rejected message of a batch whose loop ran to its end was handed
to the DLQ producer. -/
theorem Process.Staged.sends {work : Batch} {attempt : Nat} {tp : TopicPartition} {offset : Nat}
    {value : Option Bytes} {reason : String} (staged : p.Staged ingestor)
    (writing : p.phase = .writing work attempt) (held : Message.delivered tp offset value ∈ p.batch)
    (rejects : ingestor.Rejects tp.topic value reason) :
    ∃ record ∈ work.sends, record.Carries ingestor.settings tp offset value := by
  obtain ⟨outside, finished⟩ := staged _ _ writing
  obtain ⟨quiet, made⟩ := Ingestor.processMessages_finished_iff.mp finished
  obtain ⟨record, routed, built⟩ := Ingestor.dlqRecord_route rejects (quiet _ held)
  refine ⟨record, ?_, ?_⟩
  · rw [← made, Ingestor.absorbAll_sends, List.nil_append, List.mem_flatMap]
    exact ⟨_, held, Option.mem_toList.mpr routed⟩
  · obtain ⟨dlqTopic, found, rfl⟩ := Option.map_eq_some_iff.mp built
    exact ⟨found, rfl, rfl, rfl, rfl⟩

/-- The offset commits a broker may apply: for no message below an offset
it takes is a DLQ record of the process still queued or reported as failed
without a copy in the DLQ topic. -/
def CommitsAfterDelivery (group : Group) (action : GroupAction) : Prop :=
  ∀ id accepted, action = .inr (id, .commit accepted) → ∀ tp stored, (tp, stored) ∈ accepted →
    ∀ record ∈ (group.processes id).outbox ++ (group.processes id).undelivered,
      record.originalTopic = tp.topic → record.originalPartition = tp.partition → record.originalOffset < stored →
      ∃ copy ∈ group.shared.dlq, copy.Copies record

structure Process.Recording (ingestor : Ingestor) (s : Backend) (p : Process) : Prop where
  assigned : p.Assigned ingestor
  polled : p.Polled ingestor s
  staged : p.Staged ingestor
  handed : p.Handed s
  covered : p.Covered (ingestor.Recorded s (p.records s))

theorem Process.Recording.grows (recording : p.Recording ingestor s) (grows : s.Grows after) :
    p.Recording ingestor after := by
  have subset : p.records s ⊆ p.records after :=
    List.append_subset.mpr
      ⟨List.Subset.trans grows.dlq.subset (List.subset_append_left ..), List.subset_append_right ..⟩
  exact ⟨recording.assigned, recording.polled.grows grows, recording.staged,
    fun work attempt writing => List.Subset.trans (recording.handed work attempt writing) subset,
    recording.covered.mono fun _ _ recorded => recorded.grows grows subset⟩

/-- The step lemma of both parts: what the committed offsets and the
process leave behind is recorded. -/
theorem Process.Recording.step (recording : p.Recording ingestor s)
    (committed : ∀ tp offset, offset < s.committed tp → ingestor.Recorded s s.dlq tp offset)
    (taken : ingestor.ProcessStep s p action after next)
    (delivered : ∀ accepted, action = .commit accepted → ∀ tp stored, (tp, stored) ∈ accepted →
      ∀ record ∈ p.outbox ++ p.undelivered, record.originalTopic = tp.topic →
        record.originalPartition = tp.partition → record.originalOffset < stored →
        ∃ copy ∈ s.dlq, copy.Copies record) :
    (∀ tp offset, offset < after.committed tp → ingestor.Recorded after after.dlq tp offset) ∧
      next.Recording ingestor after := by
  have grows := taken.grows
  have handledBefore (tp : TopicPartition) (offset : Nat) (below : offset < s.committed tp) :
      ingestor.Recorded after (next.records after) tp offset :=
    (committed tp offset below).grows grows (List.Subset.trans grows.dlq.subset (List.subset_append_left ..))
  refine ⟨fun tp offset below => ?_, recording.assigned.step taken, recording.polled.step recording.assigned taken,
    recording.staged.step taken, recording.handed.step taken,
    recording.covered.step recording.staged taken handledBefore
      (fun stillUp up tp offset recorded => recorded.grows grows (taken.records up stillUp))
      fun work attempt writing committing tp offset held => ?_⟩
  · rcases taken.committed tp with same | ⟨work, accepted, isCommit, committing, subset, member⟩
    · exact (committed tp offset (same ▸ below)).grows grows grows.dlq.subset
    · obtain ⟨value, found, carried⟩ := recording.covered.offsets committing (subset member) below
      refine ⟨value, grows.message found, fun reason rejects => ?_⟩
      obtain ⟨record, inRecords, carries⟩ := carried reason rejects
      rcases List.mem_append.mp inRecords with durable | inHands
      · exact ⟨record, grows.dlq.subset durable, carries⟩
      · obtain ⟨copy, durable, copies⟩ := delivered accepted isCommit tp _ member record inHands
          carries.originalTopic carries.originalPartition (carries.originalOffset ▸ below)
        exact ⟨copy, grows.dlq.subset durable, carries.copy copies⟩
  · obtain ⟨value, member, -, found⟩ := recording.polled.held held
    refine ⟨value, grows.message found, fun reason rejects => ?_⟩
    obtain ⟨record, sent, carries⟩ := recording.staged.sends writing member rejects
    exact ⟨record, taken.records (by simp [writing]) (by simp [committing])
      (recording.handed work attempt writing sent), carries⟩

/-- In every run in which the broker applies offset commits only after the
DLQ records of the messages below were delivered, no rejected message is
dropped: below the committed offsets each is in its DLQ topic. -/
theorem Ingestor.dead_letters_durable {group : Group}
    (reach : Reach (Guarded ingestor.Step CommitsAfterDelivery) .initial group) :
    ingestor.DeadLettersDurable group.shared := by
  have base : (∀ tp offset, offset < Group.initial.shared.committed tp →
      ingestor.Recorded Group.initial.shared Group.initial.shared.dlq tp offset) ∧
      ∀ id, (Group.initial.processes id).Recording ingestor Group.initial.shared :=
    ⟨nofun, fun _ => ⟨nofun, nofun, nofun, nofun, .fresh (fun _ => rfl) rfl nofun⟩⟩
  have recorded := Fleet.invariant
    (fun s => ∀ tp offset, offset < s.committed tp → ingestor.Recorded s s.dlq tp offset)
    (fun _ s p => p.Recording ingestor s) reach base
    (by
      rintro before ⟨tp, value⟩ after - rfl committed each
      have grows := before.shared.grows_append tp value
      exact ⟨fun key offset below => (committed key offset below).grows grows (List.Subset.refl _),
        fun id => (each id).grows grows⟩)
    (by
      rintro before id action after next guard taken committed each
      obtain ⟨later, renewed⟩ := (each id).step committed taken fun accepted isCommit =>
        guard id accepted (by rw [isCommit])
      exact ⟨later, renewed, fun other _ => (each other).grows taken.grows⟩)
  intro tp offset value reason found rejects below
  obtain ⟨stored, there, carried⟩ := recorded.1 tp offset below
  cases there.symm.trans found
  exact carried reason rejects

def features0 : TopicPartition := ⟨"higgs.features.v1", 0⟩

/-- An ingestor for messages whose value is null, which it rejects whatever
the models accept. -/
def nullValueIngestor : Ingestor where
  settings := {}
  pydantic := { featureEvent := fun _ => .error 1, labelEvent := fun _ => .error 1 }
  limits := ⟨1000, 4300⟩

def nullValueRecord : DlqRecord where
  dlqTopic := "higgs.features.dlq"
  originalTopic := "higgs.features.v1"
  originalPartition := 0
  originalOffset := 0
  reason := "empty_message_value"
  rawValueBase64 := []
  failedAt := 0

/-- The group in which process 0 has read one message without a value and
has handed its record to the DLQ producer. -/
theorem nullValue_handed : ∃ before, Reach (Guarded nullValueIngestor.Step CommitsAfterDelivery) .initial before ∧
    before.shared.log features0 = [none] ∧ before.shared.dlq = [] ∧
    (before.processes 0).phase = .committing ⟨[], [], [(features0, 0)], [nullValueRecord]⟩ ∧
    (before.processes 0).outbox = [nullValueRecord] ∧ (before.processes 0).undelivered = [] := by
  let outside : Outside := ⟨fun _ => true, fun _ => 0⟩
  have processed : nullValueIngestor.processMessages outside {} [.delivered features0 0 none] =
      (⟨[], [], [(features0, 0)], [nullValueRecord]⟩, none) := rfl
  have started : Reach (Guarded nullValueIngestor.Step CommitsAfterDelivery) .initial _ :=
    Reach.next (.next .refl (.inl (features0, none)) ⟨.environment rfl, nofun⟩)
      (.inr (0, .start)) ⟨.process (.start rfl), nofun⟩
  have polled : Reach (Guarded nullValueIngestor.Step CommitsAfterDelivery) .initial _ :=
    (started.next (.inr (0, .assign features0)) ⟨.process (.assign (by simp) (Or.inl rfl)), nofun⟩).next
      (.inr (0, .poll features0)) ⟨.process (.poll rfl (by decide) (by decide) rfl rfl), nofun⟩
  have handed : Reach (Guarded nullValueIngestor.Step CommitsAfterDelivery) .initial _ :=
    (polled.next (.inr (0, .process outside)) ⟨.process (.process rfl (by decide) processed), nofun⟩).next
      (.inr (0, .skipWrite)) ⟨.process (.skipWrite rfl rfl rfl), nofun⟩
  exact ⟨_, handed, rfl, rfl, rfl, rfl, rfl⟩

/-- Once the record is delivered the offset may be committed. -/
theorem Ingestor.delivered_null_value_durable :
    ∃ group, Reach (Guarded nullValueIngestor.Step CommitsAfterDelivery) .initial group ∧
      group.shared.committed features0 = 1 ∧ nullValueIngestor.DeadLettersDurable group.shared := by
  obtain ⟨before, reach, -, -, committing, queued, none⟩ := nullValue_handed
  have delivered : Reach (Guarded nullValueIngestor.Step CommitsAfterDelivery) .initial _ :=
    reach.next (.inr (0, .deliver nullValueRecord))
      ⟨.process (.deliver (by simp [committing]) (by simp [queued])), nofun⟩
  have committed := delivered.next (.inr (0, .commit [(features0, 1)]))
    ⟨.process (.commit committing (by simp [Batch.offsets])), by
      rintro id accepted ⟨⟩ tp stored - record member
      simp [queued, none] at member⟩
  exact ⟨_, committed, by simp [Backend.commit], Ingestor.dead_letters_durable committed⟩

/-- The offset is committed with the record still queued, and the process
dies: the message is neither in the DLQ nor read again. -/
theorem Ingestor.queued_dead_letter_lost :
    ¬∀ (ingestor : Ingestor) (group : Group), Reach ingestor.Step .initial group →
      ingestor.DeadLettersDurable group.shared := by
  intro durable
  obtain ⟨before, guarded, message, noRecords, committing, -, -⟩ := nullValue_handed
  have committed : Reach nullValueIngestor.Step .initial _ :=
    guarded.forget_guard.next (.inr (0, .commit [(features0, 1)]))
      (.process (.commit committing (by simp [Batch.offsets])))
  have crashed := committed.next (.inr (0, .crash)) (.process .crash)
  obtain ⟨record, member, -⟩ := durable nullValueIngestor _ crashed features0 0 none "empty_message_value"
    (by simp [Backend.commit, message]) rfl (by simp [Backend.commit])
  simp [Backend.commit, noRecords] at member

end Amel
