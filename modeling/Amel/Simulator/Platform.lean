import Amel.Ingestor.Persisted
import Amel.Pipeline.Provenance
import Amel.Simulator.Runner

namespace Amel

open Python (Bytes)
open Python.Json (loads)
open Transition (Reach Guarded)

/-- The simulator and its topics before the lake. -/
structure Platform where
  lake : Lake
  source : Source

inductive PlatformAction
  | source (action : SourceAction)
  | lake (action : LakeAction)

namespace Stream

def entityId : (stream : Stream) → stream.Row → String
  | features => HiggsFeatureEvent.entityId
  | labels => HiggsLabelEvent.entityId

def partition : (stream : Stream) → stream.Row → Nat
  | features => HiggsFeatureEvent.kafkaPartition
  | labels => HiggsLabelEvent.kafkaPartition

def offset : (stream : Stream) → stream.Row → Nat
  | features => HiggsFeatureEvent.kafkaOffset
  | labels => HiggsLabelEvent.kafkaOffset

def topic (settings : IngestorSettings) : Stream → String
  | features => settings.featuresTopic
  | labels => settings.labelsTopic

/-- The row is what the ingestor makes of a payload that validates. -/
def Validates (pydantic : Pydantic) (payload : Payload) : (stream : Stream) → stream.Row → Prop
  | features => fun row => ∃ event, pydantic.featureEvent (.dict payload) = .ok event ∧
      row = Row.toFeature ⟨event, row.kafkaPartition, row.kafkaOffset⟩ row.ingestedAt
  | labels => fun row => ∃ event, pydantic.labelEvent (.dict payload) = .ok event ∧
      row = Row.toLabel ⟨event, row.kafkaPartition, row.kafkaOffset⟩ row.ingestedAt

end Stream

/-- The row was read from this record, at the place it names. -/
structure Source.Carries (pydantic : Pydantic) (s : Source) (stream : Stream) (row : stream.Row) (record : Record) :
    Prop where
  found : (s.log stream (stream.partition row))[stream.offset row]? = some record
  validates : stream.Validates pydantic record.payload row

/-- The rows of an ingestor transaction, each read from some record. -/
def Source.Supplies (pydantic : Pydantic) (s : Source) (features : List HiggsFeatureEvent)
    (labels : List HiggsLabelEvent) : Prop :=
  (∀ row ∈ features, ∃ record, s.Carries pydantic .features row record) ∧
    ∀ row ∈ labels, ∃ record, s.Carries pydantic .labels row record

/-- A step of the simulator or of the lake. What lands comes from Kafka. -/
inductive Platform.Step (dataset : List HiggsRow) (pydantic : Pydantic) (pipeline : Pipeline) :
    Platform → PlatformAction → Platform → Prop
  | source {p action after} : Source.Step dataset p.lake.shared.landing p.source action after →
      Step dataset pydantic pipeline p (.source action) { p with source := after }
  | lake {p action after} : pipeline.Step p.lake action after →
      (∀ features labels, action = .inl (.beginLanding features labels) →
        p.source.Supplies pydantic features labels) →
      Step dataset pydantic pipeline p (.lake action) { p with lake := after }

def Platform.initial (clock : ℕ+) : Platform := ⟨.initial clock, {}⟩

/-- Each start of the simulator finds its indices clear. -/
def Platform.Clear (dataset : List HiggsRow) (p : Platform) : PlatformAction → Prop
  | .source action => p.source.Clear dataset action
  | .lake _ => True

variable {dataset : List HiggsRow} {pydantic : Pydantic} {pipeline : Pipeline} {clock : ℕ+} {p : Platform}
  {source later : Source} {s after : World} {stream : Stream} {row : stream.Row} {record : Record}

/-- An ingestor process that read its messages from the simulator's topics
writes rows that these supply. -/
theorem Ingestor.supplies {ingestor : Ingestor} {group : Group} {id : Nat} {work : Batch} {attempt : Nat}
    (reach : Reach ingestor.Step .initial group)
    (writing : (group.processes id).phase = .writing work attempt)
    (carried : ∀ (stream : Stream) (partition offset : Nat) (value : Option Bytes),
      (group.shared.log ⟨stream.topic ingestor.settings, partition⟩)[offset]? = some value →
      ∃ bytes, value = some bytes ∧ ∃ record, (source.log stream partition)[offset]? = some record ∧
        loads ingestor.limits bytes = .ok (.dict record.payload)) (now : Int) :
    source.Supplies ingestor.pydantic (work.featuresRows.map (·.toFeature now))
      (work.labelsRows.map (·.toLabel now)) := by
  obtain ⟨-, ingesting⟩ := Ingestor.ingested_of_reach reach
  have staged := (ingesting id).staged
  have polled := (ingesting id).polled
  refine ⟨fun row member => ?_, fun row member => ?_⟩
  · obtain ⟨read, inRows, rfl⟩ := List.mem_map.mp member
    obtain ⟨value, found, accepts⟩ := staged.row polled writing (Batch.feature_mem_rows inRows)
    obtain ⟨bytes, rfl, record, atRecord, loaded⟩ := carried .features _ _ _ found
    exact ⟨record, atRecord, read.event, accepts.featureEvent loaded, rfl⟩
  · obtain ⟨read, inRows, rfl⟩ := List.mem_map.mp member
    obtain ⟨value, found, accepts⟩ := staged.row polled writing (Batch.label_mem_rows inRows)
    obtain ⟨bytes, rfl, record, atRecord, loaded⟩ := carried .labels _ _ _ found
    exact ⟨record, atRecord, read.event, accepts.labelEvent loaded, rfl⟩

theorem Source.Carries.grows (carries : source.Carries pydantic stream row record)
    (log : ∀ topic partition, source.log topic partition <+: later.log topic partition) :
    later.Carries pydantic stream row record := by
  obtain ⟨found, validates⟩ := carries
  obtain ⟨rest, same⟩ := log stream (stream.partition row)
  obtain ⟨inside, -⟩ := List.getElem?_eq_some_iff.mp found
  exact ⟨by rw [← same, List.getElem?_append_left inside, found], validates⟩

/-- The entity of a row is the one of its record's index. -/
theorem Source.Carries.entityId (carries : source.Carries pydantic stream row record) (declared : pydantic.Declared) :
    record.malformed = false ∧ stream.entityId row = higgsEntityId record.index := by
  obtain ⟨-, validates⟩ := carries
  cases stream with
  | features =>
    obtain ⟨event, reads, same⟩ := validates
    obtain ⟨valid, entity⟩ := Record.of_featureEvent declared reads
    exact ⟨valid, (congrArg HiggsFeatureEvent.entityId same).trans (by simp [Row.toFeature, entity])⟩
  | labels =>
    obtain ⟨event, reads, same⟩ := validates
    obtain ⟨valid, entity⟩ := Record.of_labelEvent declared reads
    exact ⟨valid, (congrArg HiggsLabelEvent.entityId same).trans (by simp [Row.toLabel, entity])⟩

theorem Source.Carries.holds (carries : source.Carries pydantic stream row record) : source.Holds record :=
  Or.inr ⟨stream, _, List.mem_of_getElem? carries.found⟩

/-- Every row that landed or is about to was read from a record. -/
structure World.Supplied (pydantic : Pydantic) (source : Source) (s : World) : Prop where
  landed : ∀ stream : Stream, ∀ row ∈ stream.landed s.landing, ∃ record, source.Carries pydantic stream row record
  pending : ∀ transaction ∈ s.transactions, ∀ stream : Stream, ∀ row ∈ stream.inserted transaction,
    ∃ record, source.Carries pydantic stream row record

theorem World.Supplied.grows (supplied : s.Supplied pydantic source)
    (log : ∀ topic partition, source.log topic partition <+: later.log topic partition) :
    s.Supplied pydantic later where
  landed stream row member := (supplied.landed stream row member).imp fun _ carries => carries.grows log
  pending transaction stillOpen stream row member :=
    (supplied.pending transaction stillOpen stream row member).imp fun _ carries => carries.grows log

theorem World.Supplied.happens (supplied : s.Supplied pydantic source) {event : LakeEvent}
    (happened : LakeEvent.Happens s event after)
    (supplies : ∀ features labels, event = .beginLanding features labels → source.Supplies pydantic features labels) :
    after.Supplied pydantic source := by
  obtain ⟨landed, pending⟩ := supplied
  cases happened with
  | tick => exact ⟨landed, pending⟩
  | beginLanding =>
    obtain ⟨features, labels⟩ := supplies _ _ rfl
    refine ⟨landed, fun transaction member => ?_⟩
    rcases List.mem_append.mp member with old | new
    · exact pending transaction old
    · rw [List.mem_singleton.mp new]
      intro stream row inserted
      cases stream with
      | features =>
        obtain ⟨given, member, rfl⟩ := List.mem_map.mp inserted
        obtain ⟨record, found, event, reads, same⟩ := features given member
        exact ⟨record, found, event, reads, congrArg (fun r => { r with ingestedAt := s.clock }) same⟩
      | labels =>
        obtain ⟨given, member, rfl⟩ := List.mem_map.mp inserted
        obtain ⟨record, found, event, reads, same⟩ := labels given member
        exact ⟨record, found, event, reads, congrArg (fun r => { r with ingestedAt := s.clock }) same⟩
  | @commitLanding transaction present =>
    refine ⟨fun stream row member => ?_, fun other member => pending other (List.mem_of_mem_erase member)⟩
    rw [stream.landed_insert] at member
    rcases KeyedTable.mem_insertIgnore _ member with old | new
    · exact landed stream row old
    · exact pending transaction present stream row new
  | abortLanding => exact ⟨landed, fun other member => pending other (List.mem_of_mem_erase member)⟩

theorem Platform.lake_reach {allowed : Platform → PlatformAction → Prop}
    (reach : Reach (Guarded (Platform.Step dataset pydantic pipeline) allowed) (.initial clock) p) :
    Reach pipeline.Step (.initial clock) p.lake := by
  refine reach.invariant (fun p => Reach pipeline.Step (.initial clock) p.lake) .refl ?_
  rintro before action after - lake ⟨taken, -⟩
  cases taken with
  | source => exact lake
  | lake taken => exact lake.next _ taken

theorem Platform.aligned_of_reach
    (reach : Reach (Guarded (Platform.Step dataset pydantic pipeline) (Platform.Clear dataset)) (.initial clock) p) :
    p.source.Aligned ∧ p.lake.shared.Supplied pydantic p.source := by
  refine reach.invariant (fun p => p.source.Aligned ∧ p.lake.shared.Supplied pydantic p.source) ⟨⟨?_, nofun⟩, ?_⟩ ?_
  · rintro a b (⟨_, sent⟩ | ⟨_, _, inLog⟩)
    · cases sent
    · cases inLog
  · refine ⟨fun stream row member => ?_, nofun⟩
    cases stream <;> cases member
  · rintro before action after - ⟨aligned, supplied⟩ ⟨taken, clear⟩
    cases taken with
    | source taken => exact ⟨aligned.step clear taken, supplied.grows taken.log⟩
    | lake taken supplies =>
      refine ⟨aligned, ?_⟩
      cases taken with
      | environment happened =>
        exact supplied.happens happened fun features labels same => supplies features labels (congrArg _ same)
      | process taken =>
        obtain ⟨-, landing, transactions⟩ := taken.landing
        exact ⟨landing ▸ supplied.landed, transactions ▸ supplied.pending⟩

/-- No ingestor transaction begins. -/
def LandsNothing (_ : Lake) (action : LakeAction) : Prop :=
  ∀ features labels, action ≠ .inl (.beginLanding features labels)

/-- One more step of the simulator side. -/
theorem Platform.reach_source {allowed : Platform → PlatformAction → Prop} {origin : Platform} {lake : Lake}
    {action : SourceAction}
    (reach : Reach (Guarded (Platform.Step dataset pydantic pipeline) allowed) origin ⟨lake, source⟩)
    (taken : Source.Step dataset lake.shared.landing source action later)
    (guard : allowed ⟨lake, source⟩ (.source action)) :
    Reach (Guarded (Platform.Step dataset pydantic pipeline) allowed) origin ⟨lake, later⟩ :=
  reach.next (.source action) ⟨.source taken, guard⟩

/-- The platform follows a run of the lake in which no landing begins. -/
theorem Platform.reach_lake {allowed : Platform → PlatformAction → Prop} {origin : Platform} {lake onwards : Lake}
    (reach : Reach (Guarded (Platform.Step dataset pydantic pipeline) allowed) origin ⟨lake, source⟩)
    (run : Reach (Guarded pipeline.Step LandsNothing) lake onwards) (allows : ∀ p action, allowed p (.lake action)) :
    Reach (Guarded (Platform.Step dataset pydantic pipeline) allowed) origin ⟨onwards, source⟩ := by
  induction run with
  | refl => exact reach
  | tail _ taken ih =>
    obtain ⟨action, taken, noLanding⟩ := taken
    exact ih.next (.lake action)
      ⟨.lake taken fun features labels same => absurd same (noLanding features labels), allows _ _⟩

/-- One ingestor transaction, begun and committed. -/
theorem Platform.reach_landing {allowed : Platform → PlatformAction → Prop} {origin : Platform} {now : Int}
    {landing : Landing} {processes : String → DagRun} {features : List HiggsFeatureEvent}
    {labels : List HiggsLabelEvent}
    (reach : Reach (Guarded (Platform.Step dataset pydantic pipeline) allowed) origin
      ⟨⟨{ clock := now, landing }, processes⟩, source⟩)
    (supplies : source.Supplies pydantic features labels) (allows : ∀ p action, allowed p (.lake action)) :
    Reach (Guarded (Platform.Step dataset pydantic pipeline) allowed) origin
      ⟨⟨{ clock := now
          landing := landing.insert (features.map ({ · with ingestedAt := now }))
            (labels.map ({ · with ingestedAt := now })) }, processes⟩, source⟩ := by
  let transaction : LandingTransaction :=
    ⟨now, features.map ({ · with ingestedAt := now }), labels.map ({ · with ingestedAt := now })⟩
  have began : Reach (Guarded (Platform.Step dataset pydantic pipeline) allowed) origin
      ⟨⟨{ clock := now, landing, transactions := [transaction] }, processes⟩, source⟩ :=
    reach.next (.lake (.inl (.beginLanding features labels)))
      ⟨.lake (.environment .beginLanding) fun _ _ same => by cases same; exact supplies, allows _ _⟩
  have landed := began.next (.lake (.inl (.commitLanding transaction)))
    ⟨.lake (.environment (.commitLanding (List.mem_singleton.mpr rfl))) nofun, allows _ _⟩
  rwa [List.erase_cons_head] at landed

end Amel
