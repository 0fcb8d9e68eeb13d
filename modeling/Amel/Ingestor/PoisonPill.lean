import Amel.Ingestor.DeadLetter
import Amel.Ingestor.Persisted

namespace Amel

open Python (Bytes)

variable {ingestor : Ingestor} {s after : Backend} {p next : Process} {outside : Outside}
  {tp : TopicPartition} {offset : Nat} {value : Option Bytes}

/-- How many landing rows and DLQ records a message becomes. -/
def Route.places (route : Route) : Nat :=
  route.featuresRow.toList.length + route.labelsRow.toList.length + route.dlqRecord.toList.length

/-- The DLQ producer takes the record of the message, if it is rejected. -/
def Ingestor.DlqTakes (ingestor : Ingestor) (outside : Outside) (tp : TopicPartition) (offset : Nat)
    (value : Option Bytes) : Prop :=
  ∀ reason record, ingestor.Rejects tp.topic value reason →
    ingestor.dlqRecord outside (.delivered tp offset value) tp offset reason = some record →
    outside.takes record = true

/-- The body of the batch loop raises nothing exactly on harmless values
whose DLQ record, if there is one, the producer takes. -/
theorem Ingestor.route_quiet_iff (subscribed : ingestor.settings.Subscribed tp.topic) :
    (ingestor.route outside (.delivered tp offset value)).error = none ↔
      ingestor.Harmless value ∧ ingestor.DlqTakes outside tp offset value := by
  rw [← ingestor.validate_returns_iff tp.topic value]
  simp only [DlqTakes, Rejects, route, Message.delivered]
  rcases verdict : ingestor.validate tp.topic value with raised | reason | event | event
  · simp [Route.error]
  · obtain ⟨dlqTopic, hasTopic⟩ := IngestorSettings.dlqTopicFor_isSome subscribed
    obtain ⟨record, built⟩ : ∃ record, ingestor.dlqRecord outside
        ⟨some tp.topic, some tp.partition, some offset, value⟩ tp offset reason = some record :=
      ⟨_, by rw [dlqRecord, hasTopic, Option.map_some]⟩
    cases taken : outside.takes record with
    | false => simp [built, taken, Route.error]
    | true =>
      refine ⟨fun _ => ⟨⟨_, rfl⟩, ?_⟩, fun _ => by simp [built, taken, Route.error]⟩
      rintro _ other ⟨⟩ again
      cases built.symm.trans again
      exact taken
  · simp [Route.error]
  · simp [Route.error]

/-- A message that raises nothing goes to exactly one place. -/
theorem Ingestor.places_of_quiet (quiet : (ingestor.route outside (.delivered tp offset value)).error = none) :
    (ingestor.route outside (.delivered tp offset value)).places = 1 := by
  cases routed : ingestor.route outside (.delivered tp offset value) with
  | missingMetadata =>
    simp only [route, Message.delivered] at routed
    split at routed
    · cases routed
    · split at routed
      · cases routed
      · split at routed <;> cases routed
    · cases routed
    · cases routed
  | raises error => simp [routed, Route.error] at quiet
  | _ => rfl

/-- `_process_batch` with a healthy database, whose first write refuses only
what its tables cannot hold, and a broker that takes the offset commit: the
three steps it is made of. -/
def Ingestor.HealthyPass (ingestor : Ingestor) (outside : Outside) (now : Int) (s : Backend) (p : Process)
    (work : Batch) (after : Backend) (next : Process) : Prop :=
  ∃ processed written stored, ingestor.ProcessStep s p (.process outside) s processed ∧
    processed.phase = .writing work 0 ∧
    (ingestor.ProcessStep s processed .skipWrite stored written ∨
      ingestor.ProcessStep s processed (.write now) stored written) ∧
    ingestor.ProcessStep stored written (.commit work.offsets) after next

/-- The batch is settled: each of its messages became exactly one landing row
or DLQ record, its offset is committed, and the loop polls again. -/
structure Ingestor.Settled (ingestor : Ingestor) (outside : Outside) (now : Int) (s : Backend) (p : Process)
    (work : Batch) (after : Backend) (next : Process) : Prop where
  onePlace : ∀ msg ∈ p.batch, (ingestor.route outside msg).places = 1
  featuresRows : work.featuresRows = p.batch.flatMap fun msg => (ingestor.route outside msg).featuresRow.toList
  labelsRows : work.labelsRows = p.batch.flatMap fun msg => (ingestor.route outside msg).labelsRow.toList
  sends : work.sends = p.batch.flatMap fun msg => (ingestor.route outside msg).dlqRecord.toList
  landing : after.landing = work.write now s.landing
  outbox : next.outbox = p.outbox ++ work.sends
  committed : ∀ msg ∈ p.batch, ∀ tp offset, msg.At tp offset → offset < after.committed tp
  polling : next.phase = .polling ∧ next.batch = []

theorem keys_bump (offset : Nat) (tp : TopicPartition) (tops : List (TopicPartition × Nat)) :
    (bump offset tp tops).map Prod.fst =
      if tp ∈ tops.map Prod.fst then tops.map Prod.fst else tops.map Prod.fst ++ [tp] := by
  induction tops with
  | nil => simp [bump]
  | cons head rest ih =>
    obtain ⟨key, top⟩ := head
    unfold bump
    by_cases same : key = tp
    · simp [same]
    · rw [if_neg same, List.map_cons, ih]
      by_cases present : tp ∈ rest.map Prod.fst <;> simp [present, Ne.symm same]

/-- Each partition has one maximum. -/
theorem Ingestor.absorbAll_keys_nodup {start : Batch} {batch : List Message}
    (distinct : (start.maxOffset.map Prod.fst).Nodup) :
    ((ingestor.absorbAll outside start batch).maxOffset.map Prod.fst).Nodup := by
  induction batch generalizing start with
  | nil => exact distinct
  | cons msg rest ih =>
    rw [absorbAll_cons]
    refine ih ?_
    unfold Batch.absorb
    dsimp only
    split
    · rw [keys_bump]
      split
      · exact distinct
      · rename_i absent
        exact List.Nodup.append distinct (List.nodup_singleton _) (List.disjoint_singleton.mpr absent)
    · exact distinct

theorem Backend.committed_of_mem {offsets : List (TopicPartition × Nat)} {stored : Nat}
    (distinct : (offsets.map Prod.fst).Nodup) (member : (tp, stored) ∈ offsets) :
    (s.commit offsets).committed tp = stored := by
  induction offsets generalizing s with
  | nil => cases member
  | cons head rest ih =>
    obtain ⟨key, first⟩ := head
    rw [List.map_cons, List.nodup_cons] at distinct
    rcases List.mem_cons.mp member with same | later
    · cases same
      rcases (s.commit [(tp, stored)]).committed_commit rest tp with unchanged | again
      · exact unchanged.trans (by simp [commit])
      · exact absurd (List.mem_map_of_mem again) distinct.1
    · exact ih (s := s.commit [(key, first)]) distinct.2 later

/-- One past the largest offset of each partition is above every message
of the batch. -/
theorem Ingestor.absorbAll_commits {batch : List Message} {msg : Message} (member : msg ∈ batch)
    (place : msg.At tp offset) :
    offset < (s.commit (ingestor.absorbAll outside {} batch).offsets).committed tp := by
  obtain ⟨top, above, found⟩ := ingestor.absorbAll_covers outside {} member place
  have distinct : ((ingestor.absorbAll outside {} batch).offsets.map Prod.fst).Nodup := by
    rw [Batch.offsets, List.map_map]
    exact absorbAll_keys_nodup List.nodup_nil
  rw [Backend.committed_of_mem distinct (List.mem_map.mpr ⟨_, found, rfl⟩)]
  omega

theorem Batch.write_nothing {work : Batch} {now : Int} {landing : Landing} (noFeatures : work.featuresRows = [])
    (noLabels : work.labelsRows = []) : work.write now landing = landing := by
  rw [Batch.write, noFeatures, noLabels]
  rfl

/-- A batch that raises nothing and can be stored passes with a healthy
database and broker. -/
theorem Ingestor.settled_of_quiet {now : Int} (polled : p.Polled ingestor s) (polling : p.phase = .polling)
    (nonempty : p.batch ≠ []) (quiet : ∀ msg ∈ p.batch, (ingestor.route outside msg).error = none)
    (takes : (ingestor.absorbAll outside {} p.batch).storable ingestor.pydantic.floats now = true) :
    ∃ work after next, ingestor.HealthyPass outside now s p work after next ∧
      ingestor.Settled outside now s p work after next := by
  let work := ingestor.absorbAll outside {} p.batch
  have finished : ingestor.processMessages outside {} p.batch = (work, none) :=
    processMessages_finished_iff.mpr ⟨quiet, rfl⟩
  have processed := ProcessStep.process polling nonempty finished (s := s)
  have onePlace : ∀ msg ∈ p.batch, (ingestor.route outside msg).places = 1 := by
    intro msg member
    obtain ⟨tp, offset, value, rfl, -⟩ := polled msg member
    exact places_of_quiet (quiet _ member)
  have settled (stored : Backend) (landing : stored.landing = work.write now s.landing) :
      ingestor.Settled outside now s p work (stored.commit work.offsets)
        { p with phase := .polling, batch := [], outbox := p.outbox ++ work.sends } :=
    ⟨onePlace, absorbAll_featuresRows.trans (List.nil_append _), absorbAll_labelsRows.trans (List.nil_append _),
      absorbAll_sends.trans (List.nil_append _), landing, rfl,
      fun msg member tp offset place => absorbAll_commits member place, rfl, rfl⟩
  by_cases nothing : work.featuresRows = [] ∧ work.labelsRows = []
  · exact ⟨work, _, _, ⟨_, _, s, processed, rfl, Or.inl (.skipWrite rfl nothing.1 nothing.2),
      .commit rfl (List.Subset.refl _)⟩, settled s (Batch.write_nothing nothing.1 nothing.2).symm⟩
  · exact ⟨work, _, _, ⟨_, _, { s with landing := work.write now s.landing }, processed, rfl,
      Or.inr (.write rfl nothing takes), .commit rfl (List.Subset.refl _)⟩, settled _ rfl⟩

/-- Only a batch that raises nothing and can be stored gets past the loop
and the write. -/
theorem Ingestor.quiet_of_pass {now : Int} {work : Batch}
    (pass : ingestor.HealthyPass outside now s p work after next) :
    (∀ msg ∈ p.batch, (ingestor.route outside msg).error = none) ∧
      (ingestor.absorbAll outside {} p.batch).storable ingestor.pydantic.floats now = true := by
  obtain ⟨processed, written, stored, taken, writing, writes, -⟩ := pass
  have takes : work.storable ingestor.pydantic.floats now = true := by
    rcases writes with skipped | wrote
    · cases skipped with
      | skipWrite staged noFeatures noLabels =>
        cases writing.symm.trans staged
        exact Batch.storable_nothing _ now noFeatures noLabels
    · cases wrote with
      | write staged _ takes =>
        cases writing.symm.trans staged
        exact takes
  cases taken with
  | process polling nonempty finished =>
    cases writing
    obtain ⟨quiet, rfl⟩ := processMessages_finished_iff.mp finished
    exact ⟨quiet, takes⟩
  | raise => cases writing

/-- `_validate` returns on a message exactly when its value is harmless. A
polled batch is settled, each message in one place and the loop going on,
exactly when all its values are harmless, the DLQ producer takes the records
of those it rejects, and of those it accepts the columns hold the rows and
there are no more than one INSERT takes. -/
theorem Ingestor.poison_pill_free_iff (ingestor : Ingestor) :
    (∀ topic raw, (∃ verdict, ingestor.validate topic raw = .ok verdict) ↔ ingestor.Harmless raw) ∧
      ∀ outside now s p, p.Polled ingestor s → p.phase = .polling → p.batch ≠ [] →
        ((∃ work after next, ingestor.HealthyPass outside now s p work after next ∧
          ingestor.Settled outside now s p work after next) ↔
          (∀ tp offset value, Message.delivered tp offset value ∈ p.batch →
            ingestor.Harmless value ∧ ingestor.DlqTakes outside tp offset value) ∧
          ingestor.WithinLimit p.batch ∧ ingestor.ColumnsHold p.batch) := by
  refine ⟨ingestor.validate_returns_iff, fun outside now s p polled polling nonempty => ?_⟩
  have delivered : ∀ msg ∈ p.batch, ∃ tp offset value, msg = .delivered tp offset value := by
    intro msg member
    obtain ⟨tp, offset, value, same, -⟩ := polled msg member
    exact ⟨tp, offset, value, same⟩
  rw [← absorbAll_storable_iff outside now delivered]
  constructor
  · rintro ⟨work, after, next, pass, -⟩
    obtain ⟨quiet, takes⟩ := quiet_of_pass pass
    refine ⟨fun tp offset value member => ?_, takes⟩
    obtain ⟨key, place, other, same, subscribed, -⟩ := polled _ member
    obtain ⟨topic, partition⟩ := tp
    obtain ⟨_, _⟩ := key
    cases same
    exact (route_quiet_iff subscribed).mp (quiet _ member)
  · rintro ⟨fine, takes⟩
    refine settled_of_quiet polled polling nonempty (fun msg member => ?_) takes
    obtain ⟨tp, offset, value, rfl, subscribed, -⟩ := polled msg member
    exact (route_quiet_iff subscribed).mpr (fine tp offset value member)

/-- A batch of a label as the simulator publishes it and a message without a value. -/
def labelAndNull : Process where
  phase := .polling
  batch := [.delivered labels0 0 (some publishedLabel), .delivered features0 0 none]

/-- The first becomes a row, the second a DLQ record. -/
theorem Ingestor.label_and_null_settled : ∃ work after next,
    oneLabelIngestor.HealthyPass ⟨fun _ => true, fun _ => 0⟩ 0
      ((Backend.empty.append labels0 (some publishedLabel)).append features0 none) labelAndNull work after next ∧
    oneLabelIngestor.Settled ⟨fun _ => true, fun _ => 0⟩ 0
      ((Backend.empty.append labels0 (some publishedLabel)).append features0 none) labelAndNull work after next := by
  have ofBatch {msg : Message} (member : msg ∈ labelAndNull.batch) :
      msg = .delivered labels0 0 (some publishedLabel) ∨ msg = .delivered features0 0 none := by
    simpa [labelAndNull] using member
  refine ((poison_pill_free_iff oneLabelIngestor).2 _ 0 _ _ ?_ rfl (List.cons_ne_nil _ _)).mpr
    ⟨?_, withinLimit_of_length _ (by decide), ?_⟩
  · intro msg member
    rcases ofBatch member with rfl | rfl
    · exact ⟨labels0, 0, some publishedLabel, rfl, Or.inr rfl, rfl⟩
    · exact ⟨features0, 0, none, rfl, Or.inl rfl, rfl⟩
  · intro tp offset value member
    refine ⟨?_, fun _ _ _ _ => rfl⟩
    rcases ofBatch member with same | same
    · obtain ⟨-, -, -, rfl⟩ := Message.mk.inj same
      exact (oneLabelIngestor.validate_returns_iff labels0.topic _).mp ⟨_, oneLabel_accepted⟩
    · obtain ⟨-, -, -, rfl⟩ := Message.mk.inj same
      exact nofun
  · rintro ⟨topic, partition⟩ offset value event member accepts
    rcases ofBatch member with same | same
    · cases same
      cases accepts.symm.trans oneLabel_accepted
      decide
    · cases same
      cases accepts

/-- The byte 0xFF is no UTF-8, and the UnicodeDecodeError leaves `_validate`. -/
theorem Ingestor.invalid_utf8_raises :
    ¬∀ (ingestor : Ingestor) (topic : String) (raw : Option Bytes), ingestor.settings.Subscribed topic →
      ∃ verdict, ingestor.validate topic raw = .ok verdict := by
  intro returns
  obtain ⟨verdict, returned⟩ := returns nullValueIngestor features0.topic (some [0xFF]) (Or.inl rfl)
  have raised : nullValueIngestor.validate features0.topic (some [0xFF]) = .error (.unicodeDecodeError .utf8) := rfl
  cases raised.symm.trans returned

end Amel
