import Amel.Ingestor.Persisted
import Amel.Pipeline.Gold
import Amel.Pipeline.Handover

namespace Amel

open Python (Text text)
open Transition (Reach Guarded)

/-- The ingestors and the lake over one database: the landing tables are
those of both. -/
structure Lab where
  group : Group
  lake : Lake

inductive LabAction
  | kafka (action : GroupAction)
  | begin (id : Nat) (features : List HiggsFeatureEvent) (labels : List HiggsLabelEvent)
  | commit (id : Nat) (transaction : LandingTransaction)
  | loseAnswer (id : Nat) (transaction : LandingTransaction)
  | fail (id : Nat)
  | lake (action : LakeAction)

/-- What the lake sees of a step. -/
def LabAction.onLake : LabAction → Option LakeAction
  | kafka _ | fail _ => none
  | begin _ features labels => some (.inl (.beginLanding features labels))
  | commit _ transaction | loseAnswer _ transaction => some (.inl (.commitLanding transaction))
  | lake action => some action

/-- The transaction of `_write_batch` when it starts at a time. -/
def Batch.transaction (work : Batch) (startedAt : Int) : LandingTransaction :=
  ⟨startedAt, work.featuresRows.map (·.toFeature startedAt), work.labelsRows.map (·.toLabel startedAt)⟩

namespace Lab

def initial (clock : ℕ+) : Lab := ⟨.initial, .initial clock⟩

/-- An attempt of `_write_batch` ends. -/
def EndsWrite : GroupAction → Prop
  | .inr (_, .write _) | .inr (_, .writeFails _ _) => True
  | _ => False

/-- A landing transaction begins or commits. -/
def Lands : LakeAction → Prop
  | .inl (.beginLanding _ _) | .inl (.commitLanding _) => True
  | _ => False

/-- One step of an ingestor or of the lake. An attempt to write begins a
transaction, whose commit is one step of both sides, answered or not. One
that fails leaves its transaction to the server, which aborts it. -/
inductive Step (ingestor : Ingestor) (pipeline : Pipeline) : Lab → LabAction → Lab → Prop
  | kafka {lab action after} : ingestor.Step lab.group action after → ¬EndsWrite action →
      Step ingestor pipeline lab (.kafka action) { lab with group := after }
  | begin {lab id work attempt now after} : (lab.group.processes id).phase = .writing work attempt →
      pipeline.Step lab.lake (.inl (.beginLanding (work.featuresRows.map (·.toFeature now))
        (work.labelsRows.map (·.toLabel now)))) after →
      Step ingestor pipeline lab
        (.begin id (work.featuresRows.map (·.toFeature now)) (work.labelsRows.map (·.toLabel now)))
        { lab with lake := after }
  | commit {lab id work attempt startedAt written after} : (lab.group.processes id).phase = .writing work attempt →
      pipeline.Step lab.lake (.inl (.commitLanding (work.transaction startedAt))) after →
      ingestor.Step lab.group (.inr (id, .write startedAt)) written →
      Step ingestor pipeline lab (.commit id (work.transaction startedAt)) ⟨written, after⟩
  | loseAnswer {lab id work attempt startedAt written after} :
      (lab.group.processes id).phase = .writing work attempt →
      pipeline.Step lab.lake (.inl (.commitLanding (work.transaction startedAt))) after →
      ingestor.Step lab.group (.inr (id, .writeFails startedAt true)) written →
      Step ingestor pipeline lab (.loseAnswer id (work.transaction startedAt)) ⟨written, after⟩
  | fail {lab id now after} : ingestor.Step lab.group (.inr (id, .writeFails now false)) after →
      Step ingestor pipeline lab (.fail id) { lab with group := after }
  | lake {lab action after} : pipeline.Step lab.lake action after → ¬Lands action →
      Step ingestor pipeline lab (.lake action) { lab with lake := after }

end Lab

variable {ingestor : Ingestor} {pipeline : Pipeline} {runs : String → Prop} {clock : ℕ+} {lab after : Lab}

/-- Apart from the end of a write no step of a group changes the landing
tables. -/
theorem Ingestor.Step.landing {group onward : Group} {action : GroupAction} (taken : ingestor.Step group action onward)
    (other : ¬Lab.EndsWrite action) : onward.shared.landing = group.shared.landing := by
  cases taken with
  | environment happened => rw [happened, Backend.append]
  | process taken =>
    cases taken with
    | write => exact absurd trivial other
    | writeRetried => exact absurd trivial other
    | writeExhausted => exact absurd trivial other
    | _ => rfl

/-- What a write that reached the database leaves in the landing tables. -/
theorem Ingestor.Step.landing_writes {group onward : Group} {id : Nat} {work : Batch} {attempt : Nat} {now : Int}
    (writing : (group.processes id).phase = .writing work attempt)
    (taken : ingestor.Step group (.inr (id, .write now)) onward ∨
      ingestor.Step group (.inr (id, .writeFails now true)) onward) :
    onward.shared.landing = work.write now group.shared.landing := by
  rcases taken with answered | lost
  · cases answered with
    | process taken =>
      cases taken with
      | write before => cases writing.symm.trans before; rfl
  · cases lost with
    | process taken =>
      cases taken with
      | writeRetried before => cases writing.symm.trans before; rfl
      | writeExhausted before => cases writing.symm.trans before; rfl

theorem Ingestor.Step.landing_fails {group onward : Group} {id : Nat} {now : Int}
    (taken : ingestor.Step group (.inr (id, .writeFails now false)) onward) :
    onward.shared.landing = group.shared.landing := by
  cases taken with
  | process taken => cases taken <;> rfl

/-- Apart from the commit of a landing transaction no step of the lake
changes the landing tables. -/
theorem Pipeline.Step.landing {lake onward : Lake} {action : LakeAction} (taken : pipeline.Step lake action onward)
    (other : ∀ transaction, action ≠ .inl (.commitLanding transaction)) :
    onward.shared.landing = lake.shared.landing := by
  cases taken with
  | environment happened =>
    cases happened with
    | commitLanding => exact absurd rfl (other _)
    | _ => rfl
  | process taken => exact taken.landing.2.1

theorem Pipeline.Step.landing_commits {lake onward : Lake} {work : Batch} {startedAt : Int}
    (taken : pipeline.Step lake (.inl (.commitLanding (work.transaction startedAt))) onward) :
    onward.shared.landing = work.write startedAt lake.shared.landing := by
  cases taken with
  | environment happened => cases happened; rfl

/-- The run has upserted rows made of curated ones. -/
def DagRun.Upserted (s : World) (p : DagRun) : Prop :=
  ∀ df newCount, p.position = .trainingUpserted df newCount → ∀ t ∈ df, s.Makes t

/-- At most one curated row for an event, and nothing in the gold bucket that
was not made of curated rows. -/
structure World.Derived (s : World) : Prop where
  recorded : s.Recorded
  features : (s.curatedFeatures.map (·.eventId)).Nodup
  labels : (s.curatedLabels.map (·.eventId)).Nodup
  gold : ∀ t ∈ s.goldRows, s.Makes t

theorem World.mem_goldRows_put {s : World} {id : String} {df : List CuratedTrainingRecord} {t : CuratedTrainingRecord}
    (member : t ∈ (s.putGold id df).goldRows) : t ∈ s.goldRows ∨ t ∈ df := by
  obtain ⟨entry, inEntries, inEntry⟩ := List.mem_flatMap.mp member
  rw [putGold, AList.entries_insert] at inEntries
  rcases List.mem_cons.mp inEntries with rfl | old
  · exact Or.inr inEntry
  · exact Or.inl (List.mem_flatMap.mpr ⟨entry, (List.kerase_sublist _ _).subset old, inEntry⟩)

theorem World.Derived.step {id : String} {s onward : World} {p next : DagRun} {action : RunAction}
    (derived : s.Derived) (builds : p.Builds id s) (upserted : p.Upserted s)
    (taken : pipeline.Act id s p action onward next) : onward.Derived ∧ next.Upserted onward := by
  refine ⟨⟨derived.recorded.step builds taken, ?_, ?_, ?_⟩, ?_⟩
  · rcases taken.curates with ⟨-, features, -⟩ | ⟨_, _, featuresDf, labelsDf, -, -, -, -, -, rfl⟩
    · exact features ▸ derived.features
    · rw [World.commitCurated, updateCuratedFeatures_fst]
      exact KeyedTable.insertIgnore_keys_nodup _ derived.features _
  · rcases taken.curates with ⟨-, -, labels, -⟩ | ⟨_, _, featuresDf, labelsDf, -, -, -, -, -, rfl⟩
    · exact labels ▸ derived.labels
    · rw [World.commitCurated, updateCuratedLabels_fst]
      exact KeyedTable.insertIgnore_keys_nodup _ derived.labels _
  · intro t member
    refine World.Makes.mono ?_ taken.grows
    rcases taken.trains with ⟨-, -, -, gold, -⟩ | ⟨df, -, -, rfl, -⟩ | ⟨df, newCount, -, atPosition, -, rfl, -⟩
    · rw [World.goldRows, gold] at member
      exact derived.gold t member
    · exact derived.gold t member
    · exact (World.mem_goldRows_put member).elim (derived.gold t) (upserted df newCount atPosition t)
  · intro df newCount atPosition t member
    obtain ⟨-, built, -⟩ := taken.upserted atPosition
    exact (builds df built t member).1.mono taken.grows

theorem LakeEvent.Happens.gold {s onward : World} {event : LakeEvent} (happened : LakeEvent.Happens s event onward) :
    onward.gold = s.gold := by
  cases happened <;> rfl

theorem Pipeline.derived_of_reach {lake : Lake} (reach : Reach pipeline.Step (.initial clock) lake) :
    lake.shared.Derived := by
  refine (Fleet.invariant World.Derived (fun id s p => p.Builds id s ∧ p.Upserted s) reach.guardTrivially
    ⟨⟨⟨List.nodup_nil, List.forall_mem_nil _⟩, List.nodup_nil, List.nodup_nil, List.forall_mem_nil _⟩,
      fun _ => ⟨nofun, nofun⟩⟩ ?_ ?_).1
  · intro before event after _ happened derived each
    obtain ⟨-, features, labels, records⟩ := happened.curated
    have grows := happened.grows
    refine ⟨⟨⟨records ▸ derived.recorded.unique, fun t member => ?_⟩, features ▸ derived.features,
      labels ▸ derived.labels, fun t member => ?_⟩, fun id => ⟨(each id).1.mono grows, ?_⟩⟩
    · exact (derived.recorded.makes t (records ▸ member)).mono grows
    · rw [World.goldRows, happened.gold] at member
      exact (derived.gold t member).mono grows
    · exact fun df newCount atPosition t member => ((each id).2 df newCount atPosition t member).mono grows
  · intro before id action after next _ taken derived each
    obtain ⟨onward, upserted⟩ := derived.step (each id).1 (each id).2 taken
    have grows := taken.grows
    exact ⟨onward, ⟨.step taken, upserted⟩, fun other _ => ⟨(each other).1.mono grows,
      fun df newCount atPosition t member => ((each other).2 df newCount atPosition t member).mono grows⟩⟩

/-- The message at the place of the row is this event, accepted and such as
the columns hold. -/
def Ingestor.IsMessage (ingestor : Ingestor) (s : Backend) (row : Row Event) : Prop :=
  row.storable ingestor.pydantic.floats = true ∧ ∃ value,
    (s.log ⟨row.event.topic ingestor.settings, row.kafkaPartition⟩)[row.kafkaOffset]? = some value ∧
      ingestor.Accepts (row.event.topic ingestor.settings) value row.event

def Ingestor.FeatureMessage (ingestor : Ingestor) (s : Backend) (row : Row FeatureEvent) : Prop :=
  ingestor.IsMessage s (row.map .feature)

def Ingestor.LabelMessage (ingestor : Ingestor) (s : Backend) (row : Row LabelEvent) : Prop :=
  ingestor.IsMessage s (row.map .label)

theorem Ingestor.IsMessage.stored_text {s : Backend} {row : Row Event} (message : ingestor.IsMessage s row)
    {value : Text} (member : value ∈ row.event.texts) : text (Python.characters value) = value :=
  Event.stored_text message.1 member

/-- The training record of two events. -/
structure CuratedTrainingRecord.Joins (t : CuratedTrainingRecord) (f : FeatureEvent) (l : LabelEvent) : Prop where
  entity : f.entityId = l.entityId
  entityId : text t.entityId = f.entityId
  featureEventId : text t.featureEventId = f.eventId
  labelEventId : text t.labelEventId = l.eventId
  eventTimestamp : t.eventTimestamp = f.eventTimestamp.wall
  names : t.features.map Prod.fst = higgsFeatureNames
  features : f.features.Complete → ∀ name, t.features.lookup name = f.features.lookup name
  target : t.target = l.target
  schemaVersion : text t.schemaVersion = f.schemaVersion

namespace Lab

/-- Where the rows of the lake come from: every curated row and every training
record, in the table and in the gold bucket, from accepted messages of Kafka,
each event once. -/
structure Lineage (ingestor : Ingestor) (lab : Lab) : Prop where
  features : ∀ c ∈ lab.lake.shared.curatedFeatures, ∃ row landedAt, ingestor.FeatureMessage lab.group.shared row ∧
    (row.toFeature landedAt).CarriedOver c.sourceRunId c
  labels : ∀ c ∈ lab.lake.shared.curatedLabels, ∃ row landedAt, ingestor.LabelMessage lab.group.shared row ∧
    (row.toLabel landedAt).CarriedOver c.sourceRunId c
  featuresOnce : (lab.lake.shared.curatedFeatures.map (·.eventId)).Nodup
  labelsOnce : (lab.lake.shared.curatedLabels.map (·.eventId)).Nodup
  records : ∀ t, t ∈ lab.lake.shared.trainingRecords ∨ t ∈ lab.lake.shared.goldRows →
    ∃ f l, ingestor.FeatureMessage lab.group.shared f ∧ ingestor.LabelMessage lab.group.shared l ∧
      t.Joins f.event l.event
  recordsOnce : (lab.lake.shared.trainingRecords.map (·.entityId)).Nodup

/-- Each side of a step is a step of its own, or none. -/
theorem Step.sides {action : LabAction} (taken : Step ingestor pipeline lab action after) :
    Reach ingestor.Step lab.group after.group ∧ Reach pipeline.Step lab.lake after.lake := by
  cases taken with
  | kafka group => exact ⟨.single ⟨_, group⟩, .refl⟩
  | begin _ lake => exact ⟨.refl, .single ⟨_, lake⟩⟩
  | commit _ lake group => exact ⟨.single ⟨_, group⟩, .single ⟨_, lake⟩⟩
  | loseAnswer _ lake group => exact ⟨.single ⟨_, group⟩, .single ⟨_, lake⟩⟩
  | fail group => exact ⟨.single ⟨_, group⟩, .refl⟩
  | lake lake => exact ⟨.refl, .single ⟨_, lake⟩⟩

/-- Both sides see the same landing tables. -/
theorem Step.landing {action : LabAction} (taken : Step ingestor pipeline lab action after)
    (same : lab.group.shared.landing = lab.lake.shared.landing) :
    after.group.shared.landing = after.lake.shared.landing := by
  cases taken with
  | kafka group other => exact (group.landing other).trans same
  | begin _ lake => exact same.trans (lake.landing nofun).symm
  | commit writing lake group => rw [Ingestor.Step.landing_writes writing (.inl group), lake.landing_commits, same]
  | loseAnswer writing lake group => rw [Ingestor.Step.landing_writes writing (.inr group), lake.landing_commits, same]
  | fail group => exact group.landing_fails.trans same
  | lake lake other =>
    refine same.trans (lake.landing fun transaction commits => other ?_).symm
    rw [commits]
    trivial

/-- A run of the whole is a run of the group and a run of the lake, over one
database. -/
theorem refines (reach : Reach (Step ingestor pipeline) (initial clock) lab) :
    Reach ingestor.Step .initial lab.group ∧ Reach pipeline.Step (.initial clock) lab.lake ∧
      lab.group.shared.landing = lab.lake.shared.landing := by
  refine ⟨reach.simulates group fun _ _ _ taken => taken.sides.1, reach.simulates lake fun _ _ _ taken => taken.sides.2,
    reach.invariant (fun lab => lab.group.shared.landing = lab.lake.shared.landing) rfl ?_⟩
  intro before action after _ same taken
  exact taken.landing same

/-- Nothing in the lake is not from Kafka. However producers, crashing and
rebalancing ingestors, retried writes, and failing, cleared and overlapping
DAG runs interleave, every curated row and every training record goes back to
accepted messages, and repeated deliveries leave no second row. -/
theorem lineage (reach : Reach (Step ingestor pipeline) (initial clock) lab) : Lineage ingestor lab := by
  obtain ⟨group, lake, same⟩ := refines reach
  obtain ⟨ingested, -⟩ := Ingestor.ingested_of_reach group
  obtain ⟨sourced, -⟩ := Pipeline.sourced_of_reach lake
  have derived := Pipeline.derived_of_reach lake
  have features : ∀ c ∈ lab.lake.shared.curatedFeatures, ∃ row landedAt,
      ingestor.FeatureMessage lab.group.shared row ∧ (row.toFeature landedAt).CarriedOver c.sourceRunId c := by
    intro c member
    obtain ⟨r, landed, runId, rfl⟩ := sourced.curatedFeatures c member
    rw [← same] at landed
    obtain ⟨value, event, found, accepts, storable, read⟩ := ingested.sourced.features r landed
    exact ⟨⟨event, r.kafkaPartition, r.kafkaOffset⟩, r.ingestedAt, ⟨storable, value, found, accepts⟩,
      read ▸ r.carriedOver runId⟩
  have labels : ∀ c ∈ lab.lake.shared.curatedLabels, ∃ row landedAt,
      ingestor.LabelMessage lab.group.shared row ∧ (row.toLabel landedAt).CarriedOver c.sourceRunId c := by
    intro c member
    obtain ⟨r, landed, runId, rfl⟩ := sourced.curatedLabels c member
    rw [← same] at landed
    obtain ⟨value, event, found, accepts, storable, read⟩ := ingested.sourced.labels r landed
    exact ⟨⟨event, r.kafkaPartition, r.kafkaOffset⟩, r.ingestedAt, ⟨storable, value, found, accepts⟩,
      read ▸ r.carriedOver runId⟩
  refine ⟨features, labels, derived.features, derived.labels, fun t member => ?_, derived.recorded.unique⟩
  have makes : lab.lake.shared.Makes t := member.elim (derived.recorded.makes t) (derived.gold t)
  obtain ⟨feat, inFeatures, label, inLabels, ofFeature, ofLabel, featureEventId, labelEventId, eventTimestamp, mapping,
    target, schemaVersion⟩ := makes
  obtain ⟨f, _, message, carried⟩ := features feat inFeatures
  obtain ⟨l, _, labelMessage, labelCarried⟩ := labels label inLabels
  refine ⟨f, l, message, labelMessage, ?_⟩
  have ofF {value : Text} (member : value ∈ f.event.texts) := message.stored_text member
  have ofL {value : Text} (member : value ∈ l.event.texts) := labelMessage.stored_text member
  have entityId : text t.entityId = f.event.entityId :=
    (congrArg text (ofFeature.symm.trans carried.entityId)).trans (ofF (by simp [FeatureEvent.texts]))
  have labelEntityId : text t.entityId = l.event.entityId :=
    (congrArg text (ofLabel.symm.trans labelCarried.entityId)).trans (ofL (by simp [LabelEvent.texts]))
  exact
    { entity := entityId.symm.trans labelEntityId
      entityId
      featureEventId := (congrArg text (featureEventId.trans carried.eventId)).trans (ofF (by simp [FeatureEvent.texts]))
      labelEventId := (congrArg text (labelEventId.trans labelCarried.eventId)).trans (ofL (by simp [LabelEvent.texts]))
      eventTimestamp := eventTimestamp.trans carried.eventTimestamp
      names := mapping ▸ carried.names
      features := fun complete name => mapping ▸ carried.mapping complete name
      target := target.trans labelCarried.target
      schemaVersion :=
        (congrArg text (schemaVersion.trans carried.schemaVersion)).trans (ofF (by simp [FeatureEvent.texts])) }

/-- The lake side of a step crosses no extraction and is of a run of a kind. -/
def Orderly (runs : String → Prop) (lab : Lab) (action : LabAction) : Prop :=
  ∀ taken ∈ action.onLake, Pipeline.Uncrossed lab.lake taken ∧ Pipeline.Among runs lab.lake taken

theorem Step.onLake {action : LabAction} (taken : Step ingestor pipeline lab action after) :
    (action.onLake = none ∧ after.lake = lab.lake) ∨
      ∃ seen, action.onLake = some seen ∧ pipeline.Step lab.lake seen after.lake := by
  cases taken with
  | kafka => exact Or.inl ⟨rfl, rfl⟩
  | begin _ lake => exact Or.inr ⟨_, rfl, lake⟩
  | commit _ lake => exact Or.inr ⟨_, rfl, lake⟩
  | loseAnswer _ lake => exact Or.inr ⟨_, rfl, lake⟩
  | fail => exact Or.inl ⟨rfl, rfl⟩
  | lake lake => exact Or.inr ⟨_, rfl, lake⟩

/-- The lake side of a run whose steps meet a condition on their lake side. -/
theorem guarded_lake {allowed : Lake → LakeAction → Prop}
    (reach : Reach (Guarded (Step ingestor pipeline) (Orderly runs)) (initial clock) lab)
    (weaker : ∀ lake taken, Pipeline.Uncrossed lake taken ∧ Pipeline.Among runs lake taken → allowed lake taken) :
    Reach (Guarded pipeline.Step allowed) (.initial clock) lab.lake := by
  refine reach.simulates lake fun before action after ⟨taken, orderly⟩ => ?_
  rcases taken.onLake with ⟨-, same⟩ | ⟨seen, sees, step⟩
  · rw [same]
  · exact .single ⟨seen, step, weaker _ _ (orderly seen sees)⟩

/-- The stream of a subscribed topic. -/
def streamOf (ingestor : Ingestor) (topic : String) : Stream :=
  if topic = ingestor.settings.featuresTopic then .features else .labels

/-- The landing table of a topic is the one of its stream. -/
theorem mem_landed {landing : Landing} {topic : String} {eventId : Text}
    (member : eventId ∈ ingestor.landed landing topic) :
    ∃ r ∈ (streamOf ingestor topic).landed landing, text ((streamOf ingestor topic).eventId r) = eventId := by
  rw [Ingestor.landed] at member
  unfold streamOf
  split at member
  · rename_i features
    rw [if_pos features]
    exact List.mem_map.mp member
  · rename_i labels
    rw [if_neg labels]
    exact List.mem_map.mp member

/-- Nothing that Kafka has on record as consumed gets lost on its way to the
curated tables, as long as no transaction crosses an extraction and the runs
have staging directories of their own. Once its offset is committed, an accepted message has its row
in the landing table of its stream; once the stream's watermark has passed
that row, its event is curated, unless the validation of a run that extracted
it turned it away. -/
theorem consumed_delivered (apart : ∀ a b, runs a → runs b → Keys.safeRunId a = Keys.safeRunId b → a = b)
    (reach : Reach (Guarded (Step ingestor pipeline) (Orderly runs)) (initial clock) lab) {tp : TopicPartition}
    {offset : Nat} {value : Option Python.Bytes} {event : Event}
    (found : (lab.group.shared.log tp)[offset]? = some value) (accepts : ingestor.Accepts tp.topic value event)
    (consumed : offset < lab.group.shared.committed tp) :
    ∃ r ∈ (streamOf ingestor tp.topic).landed lab.lake.shared.landing,
      text ((streamOf ingestor tp.topic).eventId r) = event.eventId ∧
      ((streamOf ingestor tp.topic).ingestedAt r ≤ lab.lake.shared.watermark (streamOf ingestor tp.topic) →
        (streamOf ingestor tp.topic).eventId r ∈ (streamOf ingestor tp.topic).curated lab.lake.shared ∨
          ∃ commit ∈ lab.lake.shared.commits, r ∈ (streamOf ingestor tp.topic).extracted commit.extraction ∧
            (streamOf ingestor tp.topic).TurnedAway pipeline lab.lake.shared commit r) := by
  obtain ⟨group, lake, same⟩ := refines reach.forget_guard
  obtain ⟨ingested, -⟩ := Ingestor.ingested_of_reach group
  obtain ⟨stored, there, lands⟩ := ingested.committed tp offset consumed
  cases there.symm.trans found
  obtain ⟨r, landed, ofEvent⟩ := mem_landed (same ▸ lands event accepts)
  refine ⟨r, landed, ofEvent, fun below => ?_⟩
  obtain ⟨watermarked, -⟩ := Pipeline.watermarked_of_reach lake
  obtain ⟨captured, -⟩ := Pipeline.captured_of_reach (guarded_lake reach fun _ _ => And.left)
  have delivered := Pipeline.delivered_of_reach apart (guarded_lake reach fun _ _ => And.right)
  -- Some run that committed had the row in its window, and read all of it.
  obtain ⟨commit, recorded, low, high⟩ :=
    watermarked.covered _ _ (captured.landedDated _ r landed) below
  have extracted := captured.complete commit recorded _ r landed low high
  rcases (delivered commit recorded).extracted extracted with curated | turnedAway
  · exact Or.inl curated
  · exact Or.inr ⟨commit, recorded, extracted, turnedAway⟩

/-- The lab follows a step of one ingestor. -/
theorem reach_ingestor {origin : Lab} {id : Nat} {backend onward : Backend} {processes : Nat → Process}
    {p next : Process} {action : ProcessAction} {lake : Lake}
    (reach : Reach (Guarded (Step ingestor pipeline) (Orderly runs)) origin
      ⟨⟨backend, Function.update processes id p⟩, lake⟩)
    (taken : ingestor.ProcessStep backend p action onward next) (other : ¬EndsWrite (.inr (id, action))) :
    Reach (Guarded (Step ingestor pipeline) (Orderly runs)) origin
      ⟨⟨onward, Function.update processes id next⟩, lake⟩ := by
  have here : ingestor.ProcessStep backend (Function.update processes id p id) action onward next := by
    rwa [Function.update_self]
  have stepped : ingestor.Step ⟨backend, Function.update processes id p⟩ (.inr (id, action))
      ⟨onward, Function.update (Function.update processes id p) id next⟩ := .process here
  rw [Function.update_idem] at stepped
  refine reach.next (.kafka (.inr (id, action))) ⟨.kafka stepped other, ?_⟩
  intro seen sees
  cases sees

/-- One write, begun and committed before any DAG run. -/
theorem reach_write {origin : Lab} {id : Nat} {backend : Backend} {processes : Nat → Process} {p : Process}
    {work : Batch} {attempt : Nat} {now : Int} {landing : Landing}
    (reach : Reach (Guarded (Step ingestor pipeline) (Orderly runs)) origin
      ⟨⟨backend, Function.update processes id p⟩, ⟨{ clock := now, landing }, fun _ => {}⟩⟩)
    (writing : p.phase = .writing work attempt) (rows : ¬(work.featuresRows = [] ∧ work.labelsRows = []))
    (takes : work.storable ingestor.pydantic.floats now = true) :
    Reach (Guarded (Step ingestor pipeline) (Orderly runs)) origin
      ⟨⟨{ backend with landing := work.write now backend.landing },
        Function.update processes id { p with phase := .committing work, batch := [] }⟩,
        ⟨{ clock := now, landing := work.write now landing }, fun _ => {}⟩⟩ := by
  have here : (Function.update processes id p id).phase = .writing work attempt := by
    rwa [Function.update_self]
  have opens : LakeEvent.Happens { clock := now, landing }
      (.beginLanding (work.featuresRows.map (·.toFeature now)) (work.labelsRows.map (·.toLabel now)))
      { clock := now, landing, transactions := [work.transaction now] } := by
    have restamped : (⟨now, (work.featuresRows.map (·.toFeature now)).map ({ · with ingestedAt := now }),
        (work.labelsRows.map (·.toLabel now)).map ({ · with ingestedAt := now })⟩ : LandingTransaction) =
        work.transaction now := by
      rw [List.map_map, List.map_map]
      rfl
    rw [← restamped]
    exact .beginLanding
  have began := reach.next (.begin id (work.featuresRows.map (·.toFeature now)) (work.labelsRows.map (·.toLabel now)))
    ⟨.begin here (.environment opens), fun seen sees => by
      cases sees
      exact ⟨⟨List.forall_mem_nil _, nofun⟩, trivial⟩⟩
  have written : ingestor.Step ⟨backend, Function.update processes id p⟩ (.inr (id, .write now))
      ⟨{ backend with landing := work.write now backend.landing },
        Function.update (Function.update processes id p) id
          { Function.update processes id p id with phase := .committing work, batch := [] }⟩ :=
    .process (.write here rows takes)
  rw [Function.update_idem, Function.update_self] at written
  have commits : LakeEvent.Happens { clock := now, landing, transactions := [work.transaction now] }
      (.commitLanding (work.transaction now)) { clock := now, landing := work.write now landing } := by
    have closes := @LakeEvent.Happens.commitLanding { clock := now, landing, transactions := [work.transaction now] }
      (work.transaction now) (List.mem_singleton.mpr rfl)
    rwa [List.erase_cons_head] at closes
  exact began.next (.commit id (work.transaction now)) ⟨.commit here (.environment commits) written, fun seen sees => by
    cases sees
    exact ⟨fun _ _ member => absurd member List.not_mem_nil, trivial⟩⟩

/-- The lab follows a run of the lake in which nothing lands. -/
theorem reach_lake {origin : Lab} {group : Group} {lake onward : Lake}
    (reach : Reach (Guarded (Step ingestor pipeline) (Orderly runs)) origin ⟨group, lake⟩)
    (run : Reach (Guarded pipeline.Step fun lake action => ¬Lands action ∧ Pipeline.Uncrossed lake action ∧
      Pipeline.Among runs lake action) lake onward) :
    Reach (Guarded (Step ingestor pipeline) (Orderly runs)) origin ⟨group, onward⟩ := by
  induction run with
  | refl => exact reach
  | tail _ taken ih =>
    obtain ⟨action, taken, lands, orderly⟩ := taken
    refine ih.next (.lake action) ⟨.lake taken lands, fun seen sees => ?_⟩
    cases sees
    exact orderly

theorem uncrossed_of_quiet {lake : Lake} {id : String} {action : RunAction} (quiet : action.Quiet) :
    Pipeline.Uncrossed lake (.inr (id, action)) := by
  cases action with
  | commitCurated => exact quiet.elim
  | _ => trivial

/-- A published label goes through an ingestor and a DAG run. -/
theorem one_label_curated : let pipeline := Pipeline.accepting (fun _ => 25) fun _ => by decide
    ∃ lab, Reach (Guarded (Step oneLabelIngestor pipeline) (Orderly (· = "first"))) (initial 20) lab ∧
      (lab.group.shared.log labels0)[0]? = some (some publishedLabel) ∧ 0 < lab.group.shared.committed labels0 ∧
      lab.lake.shared.curatedLabels.map (·.eventId) = ["label-higgs-000000001"] := by
  intro pipeline
  let outside : Outside := ⟨fun _ => true, fun _ => 0⟩
  let row : Row LabelEvent := ⟨labelHiggs1, 0, 0⟩
  let work : Batch := ⟨[], [row], [(labels0, 0)], []⟩
  have processed : oneLabelIngestor.processMessages outside {} [.delivered labels0 0 (some publishedLabel)] =
      (work, none) := by
    have accepted : oneLabelIngestor.validate "higgs.labels.v1" (some publishedLabel) =
        .ok (.ok (.label labelHiggs1)) := oneLabel_accepted
    simp only [Ingestor.processMessages, Ingestor.route, Message.delivered, labels0, accepted]
    rfl
  let produced : Backend := Backend.empty.append labels0 (some publishedLabel)
  have start : Reach (Guarded (Step oneLabelIngestor pipeline) (Orderly (· = "first"))) (initial 20)
      ⟨⟨produced, Function.update (fun _ => {}) 0 {}⟩, .initial 20⟩ := by
    rw [Function.update_eq_self_iff.mpr rfl]
    refine .single ⟨.kafka (.inl (labels0, some publishedLabel)), .kafka (.environment rfl) not_false, ?_⟩
    intro seen sees
    cases sees
  have started := reach_ingestor start (.start rfl) not_false
  have assigned := reach_ingestor started (@Ingestor.ProcessStep.assign _ _ _ labels0 (by simp) (Or.inr rfl)) not_false
  have polled := reach_ingestor assigned
    (@Ingestor.ProcessStep.poll _ _ _ labels0 0 (some publishedLabel) rfl (by decide) (by decide) rfl rfl) not_false
  have staged := reach_ingestor polled (.process rfl (by decide) processed) not_false
  have written := reach_write staged rfl (by simp [work]) (by decide)
  have consumed := reach_ingestor written (.commit rfl (List.Subset.refl _)) not_false
  let allowed (lake : Lake) (action : LakeAction) : Prop :=
    ¬Lands action ∧ Pipeline.Uncrossed lake action ∧ Pipeline.Among (· = "first") lake action
  let s : World := { clock := 30, landing := work.write 20 {} }
  have ticked : Reach (Guarded pipeline.Step allowed) ⟨{ s with clock := 20 }, fun _ => {}⟩
      ⟨s, Function.update (fun _ => {}) "first" {}⟩ := by
    rw [Function.update_eq_self_iff.mpr rfl]
    exact .single ⟨.inl (.tick 10), .environment .tick, not_false, trivial, trivial⟩
  obtain ⟨after, prepares, prepared⟩ := Pipeline.reach_prepared ticked rfl (by decide : (25 : Int) ≤ 30)
    (Pipeline.gatePasses_accepting _ _ _ _ _)
    fun lake action quiet => ⟨not_false, uncrossed_of_quiet quiet, rfl⟩
  have committed := Fleet.reach_act prepares
    (.commitCurated rfl rfl rfl prepared.silverFeatures prepared.silverLabels)
    ⟨not_false, (by
      intro bounds extraction _ atPosition stream transaction wasOpen
      simp only [Function.update_self] at atPosition
      cases atPosition
      cases stream <;> cases wasOpen), rfl⟩
  have untouched : after.curatedLabels = [] := by
    rw [prepared.frame]
  have inserted : (updateCuratedLabels after.curatedLabels (pipeline.silverLabels "first" s) "first").1.map (·.eventId) =
      ["label-higgs-000000001"] := by
    rw [untouched, updateCuratedLabels_fst]
    rfl
  exact ⟨_, reach_lake consumed committed, rfl, Nat.one_pos, inserted⟩

theorem one_label_lineage : ∃ lab, Lineage oneLabelIngestor lab ∧
    lab.lake.shared.curatedLabels.map (·.eventId) = ["label-higgs-000000001"] := by
  obtain ⟨lab, reach, -, -, curated⟩ := one_label_curated
  exact ⟨lab, lineage reach.forget_guard, curated⟩

theorem one_label_delivered : ∃ lab : Lab, ∃ r ∈ lab.lake.shared.landing.labels,
    r.eventId = "label-higgs-000000001" ∧ lab.lake.shared.curatedLabels.map (·.eventId) = [r.eventId] := by
  obtain ⟨lab, reach, found, consumed, curated⟩ := one_label_curated
  have apart : ∀ a b, a = "first" → b = "first" → Keys.safeRunId a = Keys.safeRunId b → a = b :=
    fun a b first also _ => first.trans also.symm
  obtain ⟨r, landed, ofEvent, -⟩ := consumed_delivered apart reach found oneLabel_accepted consumed
  have ofLabel : r.eventId = "label-higgs-000000001" := Python.text_injective ofEvent
  exact ⟨lab, r, landed, ofLabel, curated.trans (congrArg (fun id => [id]) ofLabel.symm)⟩

end Lab

end Amel
