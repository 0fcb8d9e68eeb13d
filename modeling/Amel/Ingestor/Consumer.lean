import Mathlib.Data.List.Infix
import Amel.Library.Fleet
import Amel.Ingestor.Batch

namespace Amel

open Python (Bytes)

/-- What outlives every ingestor process: the partitions of Kafka with the
group's committed offsets (0 where none is stored yet, `auto.offset.reset`
being earliest), the landing tables and the records in the DLQ topics. -/
structure Backend where
  log : TopicPartition → List (Option Bytes)
  committed : TopicPartition → Nat
  landing : Landing
  dlq : List DlqRecord

namespace Backend

def empty : Backend := ⟨fun _ => [], fun _ => 0, {}, []⟩

def append (backend : Backend) (tp : TopicPartition) (value : Option Bytes) : Backend :=
  { backend with log := Function.update backend.log tp (backend.log tp ++ [value]) }

def commit (backend : Backend) (offsets : List (TopicPartition × Nat)) : Backend :=
  { backend with
    committed := offsets.foldl (fun stored (tp, next) => Function.update stored tp next) backend.committed }

/-- What every step leaves as it was: messages, landing rows and DLQ
records stay where they are. -/
structure Grows (before after : Backend) : Prop where
  log : ∀ tp, before.log tp <+: after.log tp
  landing : before.landing.Extends after.landing
  dlq : before.dlq <+: after.dlq

theorem Grows.refl (backend : Backend) : backend.Grows backend :=
  ⟨fun _ => List.prefix_rfl, Landing.Extends.refl _, List.prefix_rfl⟩

theorem Grows.trans {a b c : Backend} (ab : a.Grows b) (bc : b.Grows c) : a.Grows c :=
  ⟨fun tp => (ab.log tp).trans (bc.log tp), ab.landing.trans bc.landing, ab.dlq.trans bc.dlq⟩

theorem Grows.message {before after : Backend} (grows : before.Grows after) {tp : TopicPartition} {offset : Nat}
    {value : Option Bytes} (found : (before.log tp)[offset]? = some value) :
    (after.log tp)[offset]? = some value := by
  obtain ⟨rest, same⟩ := grows.log tp
  obtain ⟨inside, equal⟩ := List.getElem?_eq_some_iff.mp found
  rw [← same, List.getElem?_append_left inside, found]

theorem grows_append (backend : Backend) (tp : TopicPartition) (value : Option Bytes) :
    backend.Grows (backend.append tp value) := by
  refine ⟨fun other => ?_, Landing.Extends.refl _, List.prefix_rfl⟩
  by_cases same : other = tp
  · subst same
    simp [append]
  · simp [append, same]

theorem grows_commit (backend : Backend) (offsets : List (TopicPartition × Nat)) :
    backend.Grows (backend.commit offsets) :=
  ⟨fun _ => List.prefix_rfl, Landing.Extends.refl _, List.prefix_rfl⟩

/-- A partition's committed offset after a commit is the old one or one of
those the commit names. -/
theorem committed_commit (backend : Backend) (offsets : List (TopicPartition × Nat)) (tp : TopicPartition) :
    (backend.commit offsets).committed tp = backend.committed tp ∨
      (tp, (backend.commit offsets).committed tp) ∈ offsets := by
  induction offsets generalizing backend with
  | nil => exact Or.inl rfl
  | cons head rest ih =>
    obtain ⟨key, next⟩ := head
    rcases ih (backend.commit [(key, next)]) with same | later
    · change (backend.commit ((key, next) :: rest)).committed tp = _ at same
      by_cases equal : tp = key
      · subst equal
        refine Or.inr (List.mem_cons.mpr (Or.inl ?_))
        rw [same]
        simp [commit]
      · refine Or.inl (same.trans ?_)
        simp [commit, equal]
    · exact Or.inr (List.mem_cons_of_mem _ later)

end Backend

/-- Where the consume loop of a process stands. `dead` is a loop that an
exception ended in a process that still runs. -/
inductive Phase
  | down
  | polling
  | writing (work : Batch) (attempt : Nat)
  | committing (work : Batch)
  | dead

/-- An ingestor process: its loop, the next offset to fetch of each
assigned partition, the messages polled and not yet written, and the DLQ
producer's entries still queued or reported as failed. -/
structure Process where
  phase : Phase := .down
  positions : TopicPartition → Option Nat := fun _ => none
  batch : List Message := []
  outbox : List DlqRecord := []
  undelivered : List DlqRecord := []

inductive ProcessAction
  | start
  | assign (tp : TopicPartition)
  | revoke (tp : TopicPartition)
  | poll (tp : TopicPartition)
  | process (outside : Outside)
  | skipWrite
  | write (now : Int)
  | writeFails (now : Int) (applied : Bool)
  | commit (accepted : List (TopicPartition × Nat))
  | deliver (record : DlqRecord)
  | deliveryFails (record : DlqRecord)
  | crash

/-- `_write_batch` when it raises: the transaction was rolled back, or it
committed and the answer was lost. -/
def Batch.writeFailing (work : Batch) (now : Int) (applied : Bool) (landing : Landing) : Landing :=
  if applied then work.write now landing else landing

theorem Batch.extends_writeFailing (work : Batch) (now : Int) (applied : Bool) (landing : Landing) :
    landing.Extends (work.writeFailing now applied landing) := by
  unfold Batch.writeFailing
  split
  · exact landing.extends_insert _ _
  · exact Landing.Extends.refl _

/-- One step of a process. A rebalance may fall anywhere in the life of the
loop; the broker may apply all of an offset commit, part of it or none;
delivery reports of the DLQ producer arrive at any time. A write is only
ever applied to rows that the database takes. -/
inductive Ingestor.ProcessStep (ingestor : Ingestor) :
    Backend → Process → ProcessAction → Backend → Process → Prop
  | start {s p} : p.phase = .down → ProcessStep ingestor s p .start s { phase := .polling }
  | assign {s p tp} : p.phase ≠ .down → ingestor.settings.Subscribed tp.topic →
      ProcessStep ingestor s p (.assign tp) s
        { p with positions := Function.update p.positions tp (some (s.committed tp)) }
  | revoke {s p tp} : p.phase ≠ .down →
      ProcessStep ingestor s p (.revoke tp) s { p with positions := Function.update p.positions tp none }
  -- A deadline of zero seconds is over before the first message.
  | poll {s p tp position value} : p.phase = .polling → p.batch.length < ingestor.settings.batchSize →
      0 < ingestor.settings.batchTimeoutSeconds → p.positions tp = some position →
      (s.log tp)[position]? = some value →
      ProcessStep ingestor s p (.poll tp) s
        { p with
          positions := Function.update p.positions tp (some (position + 1))
          batch := p.batch ++ [Message.delivered tp position value] }
  | process {s p outside work} : p.phase = .polling → p.batch ≠ [] →
      ingestor.processMessages outside {} p.batch = (work, none) →
      ProcessStep ingestor s p (.process outside) s
        { p with phase := .writing work 0, outbox := p.outbox ++ work.sends }
  | raise {s p outside work raised} : p.phase = .polling → p.batch ≠ [] →
      ingestor.processMessages outside {} p.batch = (work, some raised) →
      ProcessStep ingestor s p (.process outside) s { p with phase := .dead, outbox := p.outbox ++ work.sends }
  | skipWrite {s p work attempt} : p.phase = .writing work attempt → work.featuresRows = [] →
      work.labelsRows = [] →
      ProcessStep ingestor s p .skipWrite s { p with phase := .committing work, batch := [] }
  | write {s p work attempt now} : p.phase = .writing work attempt →
      ¬(work.featuresRows = [] ∧ work.labelsRows = []) → work.storable ingestor.pydantic.floats now = true →
      ProcessStep ingestor s p (.write now) { s with landing := work.write now s.landing }
        { p with phase := .committing work, batch := [] }
  | writeRetried {s p work attempt now applied} : p.phase = .writing work attempt →
      ¬(work.featuresRows = [] ∧ work.labelsRows = []) → attempt + 1 ≤ ingestor.settings.maxRetries →
      (applied = true → work.storable ingestor.pydantic.floats now = true) →
      ProcessStep ingestor s p (.writeFails now applied)
        { s with landing := work.writeFailing now applied s.landing } { p with phase := .writing work (attempt + 1) }
  | writeExhausted {s p work attempt now applied} : p.phase = .writing work attempt →
      ¬(work.featuresRows = [] ∧ work.labelsRows = []) → ingestor.settings.maxRetries < attempt + 1 →
      (applied = true → work.storable ingestor.pydantic.floats now = true) →
      ProcessStep ingestor s p (.writeFails now applied)
        { s with landing := work.writeFailing now applied s.landing } { p with phase := .dead }
  | commit {s p work accepted} : p.phase = .committing work → accepted ⊆ work.offsets →
      ProcessStep ingestor s p (.commit accepted) (s.commit accepted) { p with phase := .polling }
  | deliver {s p record} : p.phase ≠ .down → record ∈ p.outbox →
      ProcessStep ingestor s p (.deliver record) { s with dlq := s.dlq ++ [record] }
        { p with outbox := p.outbox.erase record }
  | deliveryFails {s p record} : p.phase ≠ .down → record ∈ p.outbox →
      ProcessStep ingestor s p (.deliveryFails record) s
        { p with outbox := p.outbox.erase record, undelivered := p.undelivered ++ [record] }
  | crash {s p} : ProcessStep ingestor s p .crash s {}

theorem Ingestor.ProcessStep.grows {ingestor : Ingestor} {s after : Backend} {p next : Process}
    {action : ProcessAction} (taken : ingestor.ProcessStep s p action after next) : s.Grows after := by
  cases taken with
  | write => exact ⟨fun _ => List.prefix_rfl, s.landing.extends_insert _ _, List.prefix_rfl⟩
  | writeRetried => exact ⟨fun _ => List.prefix_rfl, Batch.extends_writeFailing .., List.prefix_rfl⟩
  | writeExhausted => exact ⟨fun _ => List.prefix_rfl, Batch.extends_writeFailing .., List.prefix_rfl⟩
  | commit => exact s.grows_commit _
  | deliver => exact ⟨fun _ => List.prefix_rfl, Landing.Extends.refl _, List.prefix_append ..⟩
  | _ => exact Backend.Grows.refl _

/-- The landing tables change only by a write of what a process has staged,
if the database takes it. -/
theorem Ingestor.ProcessStep.landing {ingestor : Ingestor} {s after : Backend} {p next : Process}
    {action : ProcessAction} (taken : ingestor.ProcessStep s p action after next) :
    after.landing = s.landing ∨ ∃ work attempt now, p.phase = .writing work attempt ∧
      work.storable ingestor.pydantic.floats now = true ∧ after.landing = work.write now s.landing := by
  have failing {work : Batch} {now : Int} {applied : Bool}
      (takes : applied = true → work.storable ingestor.pydantic.floats now = true) :
      work.writeFailing now applied s.landing = s.landing ∨ work.storable ingestor.pydantic.floats now = true ∧
        work.writeFailing now applied s.landing = work.write now s.landing := by
    cases applied with
    | false => exact Or.inl rfl
    | true => exact Or.inr ⟨takes rfl, rfl⟩
  cases taken with
  | write writing _ takes => exact Or.inr ⟨_, _, _, writing, takes, rfl⟩
  | writeRetried writing _ _ takes => exact (failing takes).imp_right fun written => ⟨_, _, _, writing, written⟩
  | writeExhausted writing _ _ takes => exact (failing takes).imp_right fun written => ⟨_, _, _, writing, written⟩
  | _ => exact Or.inl rfl

/-- A committed offset changes only to one that a process is committing. -/
theorem Ingestor.ProcessStep.committed {ingestor : Ingestor} {s after : Backend} {p next : Process}
    {action : ProcessAction} (taken : ingestor.ProcessStep s p action after next) (tp : TopicPartition) :
    after.committed tp = s.committed tp ∨ ∃ work accepted, action = .commit accepted ∧ p.phase = .committing work ∧
      accepted ⊆ work.offsets ∧ (tp, after.committed tp) ∈ accepted := by
  cases taken with
  | commit committing subset =>
    exact (s.committed_commit _ tp).imp_right fun member => ⟨_, _, rfl, committing, subset, member⟩
  | _ => exact Or.inl rfl

/-- Anyone may append to a partition. -/
def Produce (before : Backend) (message : TopicPartition × Option Bytes) (after : Backend) : Prop :=
  after = before.append message.1 message.2

/-- The consumer group: any number of ingestor processes. -/
abbrev Group := Fleet Nat Backend Process

abbrev GroupAction := (TopicPartition × Option Bytes) ⊕ Nat × ProcessAction

def Group.initial : Group := ⟨.empty, fun _ => {}⟩

abbrev Ingestor.Step (ingestor : Ingestor) : Group → GroupAction → Group → Prop :=
  Fleet.Step Produce fun _ => ingestor.ProcessStep

theorem Ingestor.Step.grows {ingestor : Ingestor} {before after : Group} {action : GroupAction}
    (taken : ingestor.Step before action after) : before.shared.Grows after.shared := by
  cases taken with
  | environment happened => exact happened ▸ Backend.grows_append _ _ _
  | process happened => exact happened.grows

end Amel
