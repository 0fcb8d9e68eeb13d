import Amel.Ingestor.Persisted
import Amel.Ingestor.PoisonPill

namespace Amel

open Python (Bytes)
open Transition (Reach)
open Fleet (Alone)

variable {ingestor : Ingestor} {s after : Backend} {p next : Process} {tp : TopicPartition} {position offset : Nat}
  {value : Option Bytes}

/-- What a process can do alone. -/
abbrev Ingestor.Runs (ingestor : Ingestor) : Backend × Process → Backend × Process → Prop :=
  Alone (fun _ : Nat => ingestor.ProcessStep) (fun _ => True) 0

/-- The loop can fetch a message at all. -/
structure IngestorSettings.Batches (settings : IngestorSettings) : Prop where
  room : 0 < settings.batchSize
  inTime : 0 < settings.batchTimeoutSeconds

/-- The loop is about to fetch the message at a position and has nothing else
in hand. -/
structure Process.Ready (p : Process) (tp : TopicPartition) (position : Nat) : Prop where
  polling : p.phase = .polling
  empty : p.batch = []
  outbox : p.outbox = []
  atPosition : p.positions tp = some position

/-- What one message is settled by: its offset committed, its DLQ record in
the topic if it is rejected. -/
structure Ingestor.Passes (ingestor : Ingestor) (tp : TopicPartition) (offset : Nat) (value : Option Bytes)
    (s after : Backend) (next : Process) : Prop where
  log : after.log = s.log
  committed : after.committed = Function.update s.committed tp (offset + 1)
  dlq : s.dlq <+: after.dlq
  recorded : ∀ reason, ingestor.Rejects tp.topic value reason →
    ∃ record ∈ after.dlq, record.Carries ingestor.settings tp offset value
  ready : next.Ready tp (offset + 1)

/-- Whatever is queued in the DLQ producer can be delivered. -/
theorem Ingestor.delivers_outbox (records : List DlqRecord) (up : p.phase ≠ .down)
    (queued : p.outbox = records) : ingestor.Runs (s, p)
      ({ s with dlq := s.dlq ++ records }, { p with outbox := [] }) := by
  induction records generalizing s p with
  | nil =>
    have same : (s, p) = ({ s with dlq := s.dlq ++ [] }, { p with outbox := [] }) := by
      rw [List.append_nil, ← queued]
    exact same ▸ .refl
  | cons record rest ih =>
    have delivered : ingestor.ProcessStep s p (.deliver record) { s with dlq := s.dlq ++ [record] }
        { p with outbox := p.outbox.erase record } := .deliver up (queued ▸ List.mem_cons_self)
    rw [queued, List.erase_cons_head] at delivered
    have onward := ih (s := { s with dlq := s.dlq ++ [record] }) (p := { p with outbox := rest }) up rfl
    rw [List.append_assoc] at onward
    exact .head ⟨_, delivered, trivial⟩ onward

/-- Nothing about the message at this place stops the loop: its value is
harmless, and if it is accepted the columns hold its row. -/
structure Ingestor.Passable (ingestor : Ingestor) (tp : TopicPartition) (offset : Nat) (value : Option Bytes) : Prop where
  harmless : ingestor.Harmless value
  storable : ∀ event, ingestor.Accepts tp.topic value event →
    event.storable ingestor.pydantic.floats tp.partition offset = true

/-- With a database and brokers that work, the loop settles a passable
message. -/
theorem Ingestor.passes_next (batching : ingestor.settings.Batches) (ready : p.Ready tp position)
    (subscribed : ingestor.settings.Subscribed tp.topic) (found : (s.log tp)[position]? = some value)
    (passable : ingestor.Passable tp position value) :
    ∃ after next, ingestor.Runs (s, p) (after, next) ∧ ingestor.Passes tp position value s after next := by
  obtain ⟨polling, empty, noRecords, atPosition⟩ := ready
  obtain ⟨phase, positions, batch, outbox, undelivered⟩ := p
  cases polling
  cases empty
  cases noRecords
  let outside : Outside := ⟨fun _ => true, fun _ => 0⟩
  let batch : List Message := [.delivered tp position value]
  let work := ingestor.absorbAll outside {} batch
  have quiet : (ingestor.route outside (.delivered tp position value)).error = none :=
    (route_quiet_iff subscribed).mpr ⟨passable.harmless, fun _ _ _ _ => rfl⟩
  have finished : ingestor.processMessages outside {} batch = (work, none) :=
    processMessages_finished_iff.mpr ⟨List.forall_mem_singleton.mpr quiet, rfl⟩
  have takes : work.storable ingestor.pydantic.floats 0 = true := by
    refine (absorbAll_storable_iff outside 0 (List.forall_mem_singleton.mpr ⟨tp, position, value, rfl⟩)).mpr
      ⟨withinLimit_of_length _ (Nat.le_add_left 1 7280), fun key offset other event member accepts => ?_⟩
    obtain ⟨topic, partition, place, same⟩ := Message.mk.inj (List.mem_singleton.mp member)
    obtain ⟨_, _⟩ := tp
    obtain ⟨_, _⟩ := key
    cases topic; cases partition; cases place; cases same
    exact passable.storable event accepts
  let fetched : Process :=
    ⟨.polling, Function.update positions tp (some (position + 1)), batch, [], undelivered⟩
  have polled : ingestor.Runs (s, ⟨.polling, positions, [], [], undelivered⟩) (s, fetched) :=
    .single ⟨_, .poll rfl batching.room batching.inTime atPosition found, trivial⟩
  have processed := Alone.next polled (.process rfl (List.cons_ne_nil _ _) finished : ingestor.ProcessStep s fetched _ _ _)
    trivial
  have delivered : ingestor.Runs (s, ⟨.polling, positions, [], [], undelivered⟩)
      ({ s with dlq := s.dlq ++ work.sends }, { fetched with phase := .writing work 0 }) :=
    processed.trans (delivers_outbox work.sends nofun rfl)
  -- A batch without rows is not written.
  have written : ∃ landing, ingestor.Runs (s, ⟨.polling, positions, [], [], undelivered⟩)
      ({ s with landing, dlq := s.dlq ++ work.sends },
        ⟨.committing work, Function.update positions tp (some (position + 1)), [], [], undelivered⟩) := by
    by_cases nothing : work.featuresRows = [] ∧ work.labelsRows = []
    · exact ⟨_, Alone.next delivered (.skipWrite rfl nothing.1 nothing.2) trivial⟩
    · exact ⟨_, Alone.next delivered (@ProcessStep.write _ _ _ work 0 0 rfl nothing takes) trivial⟩
  obtain ⟨landing, written⟩ := written
  have committed := Alone.next written (.commit rfl (List.Subset.refl work.offsets)) trivial
  refine ⟨_, _, committed, rfl, rfl, List.prefix_append _ _, fun reason rejects => ?_, rfl, rfl, rfl,
    Function.update_self ..⟩
  obtain ⟨record, routed, built⟩ := dlqRecord_route rejects quiet
  have sent : record ∈ work.sends := by
    rw [absorbAll_sends, List.nil_append]
    exact List.mem_flatMap.mpr ⟨_, List.mem_singleton_self _, Option.mem_toList.mpr routed⟩
  obtain ⟨dlqTopic, topic, rfl⟩ := Option.map_eq_some_iff.mp built
  exact ⟨_, List.mem_append_right _ sent, topic, rfl, rfl, rfl, rfl⟩

/-- From any position to the end of the partition. -/
theorem Ingestor.passes_rest (batching : ingestor.settings.Batches)
    (subscribed : ingestor.settings.Subscribed tp.topic) (ready : p.Ready tp position)
    (stored : position ≤ s.committed tp)
    (passable : ∀ offset value, position ≤ offset → (s.log tp)[offset]? = some value →
      ingestor.Passable tp offset value) :
    ∃ after next, ingestor.Runs (s, p) (after, next) ∧ after.log = s.log ∧ s.dlq <+: after.dlq ∧
      (s.log tp).length ≤ after.committed tp ∧ (∀ key, key ≠ tp → after.committed key = s.committed key) ∧
      (∀ offset value reason, position ≤ offset → (s.log tp)[offset]? = some value →
        ingestor.Rejects tp.topic value reason → ∃ record ∈ after.dlq, record.Carries ingestor.settings tp offset value) ∧
      next.phase = .polling ∧ next.batch = [] ∧ next.outbox = [] := by
  induction remaining : (s.log tp).length - position generalizing s p position with
  | zero =>
    refine ⟨s, p, .refl, rfl, List.prefix_rfl, by omega, fun _ _ => rfl, fun offset value reason above found _ => ?_,
      ready.polling, ready.empty, ready.outbox⟩
    obtain ⟨inside, -⟩ := List.getElem?_eq_some_iff.mp found
    omega
  | succ n ih =>
    have inside : position < (s.log tp).length := by omega
    have found := List.getElem?_eq_getElem inside
    obtain ⟨between, reached, first, passes⟩ :=
      passes_next batching ready subscribed found (passable _ _ le_rfl found)
    have stored : position + 1 ≤ between.committed tp := by rw [passes.committed, Function.update_self]
    obtain ⟨after, next, rest, log, dlq, covered, others, recorded, idle⟩ := ih passes.ready stored
      (fun offset value above there => passable offset value (by omega) (passes.log ▸ there))
      (by rw [passes.log]; omega)
    refine ⟨after, next, first.trans rest, log.trans passes.log, passes.dlq.trans dlq, ?_, fun key different => ?_,
      fun offset value reason above there rejects => ?_, idle⟩
    · rwa [passes.log] at covered
    · rw [others key different, passes.committed, Function.update_of_ne different]
    · rcases Nat.eq_or_lt_of_le above with rfl | later
      · cases there.symm.trans found
        obtain ⟨record, member, carries⟩ := passes.recorded reason rejects
        exact ⟨record, dlq.subset member, carries⟩
      · exact recorded offset value reason later (passes.log ▸ there) rejects

/-- One partition after the other. -/
theorem Ingestor.passes_all (batching : ingestor.settings.Batches) (tps : List TopicPartition)
    (subscribed : ∀ tp ∈ tps, ingestor.settings.Subscribed tp.topic) (polling : p.phase = .polling)
    (empty : p.batch = []) (noRecords : p.outbox = [])
    (passable : ∀ tp ∈ tps, ∀ offset value, s.committed tp ≤ offset → (s.log tp)[offset]? = some value →
      ingestor.Passable tp offset value) :
    ∃ after next, ingestor.Runs (s, p) (after, next) ∧ after.log = s.log ∧ s.dlq <+: after.dlq ∧
      (∀ key, s.committed key ≤ after.committed key ∨ (s.log key).length ≤ after.committed key) ∧
      ∀ tp ∈ tps, (s.log tp).length ≤ after.committed tp ∧
        ∀ offset value reason, s.committed tp ≤ offset → (s.log tp)[offset]? = some value →
          ingestor.Rejects tp.topic value reason →
            ∃ record ∈ after.dlq, record.Carries ingestor.settings tp offset value := by
  induction tps generalizing s p with
  | nil => exact ⟨s, p, .refl, rfl, List.prefix_rfl, fun _ => Or.inl le_rfl, List.forall_mem_nil _⟩
  | cons tp rest ih =>
    let assigned : Process := { p with positions := Function.update p.positions tp (some (s.committed tp)) }
    have assigns : ingestor.Runs (s, p) (s, assigned) :=
      .single ⟨.assign tp, .assign (by rw [polling]; nofun) (subscribed tp List.mem_cons_self), trivial⟩
    have ready : assigned.Ready tp (s.committed tp) := ⟨polling, empty, noRecords, Function.update_self ..⟩
    obtain ⟨between, reached, first, log, dlq, covered, others, recorded, polling, empty, noRecords⟩ :=
      passes_rest batching (subscribed tp List.mem_cons_self) ready le_rfl (passable tp List.mem_cons_self)
    obtain ⟨after, next, later, logAfter, dlqAfter, notBack, settled⟩ := ih
      (fun key member => subscribed key (List.mem_cons_of_mem _ member)) polling empty noRecords
      (fun key member offset value above there => by
        rw [log] at there
        by_cases same : key = tp
        · subst same
          obtain ⟨inside, -⟩ := List.getElem?_eq_some_iff.mp there
          omega
        · exact passable key (List.mem_cons_of_mem _ member) offset value (others key same ▸ above) there)
    refine ⟨after, next, (assigns.trans first).trans later, logAfter.trans log, dlq.trans dlqAfter, fun key => ?_,
      fun key member => ?_⟩
    · by_cases same : key = tp
      · subst same
        exact Or.inr ((notBack key).elim covered.trans fun reaches => by rwa [log] at reaches)
      · rw [← others key same, ← log]
        exact notBack key
    · by_cases same : key = tp
      · subst same
        refine ⟨(notBack key).elim covered.trans fun reaches => by rwa [log] at reaches, ?_⟩
        intro offset value reason above there rejects
        obtain ⟨record, member, carries⟩ := recorded offset value reason above there rejects
        exact ⟨record, dlqAfter.subset member, carries⟩
      · obtain ⟨reaches, carried⟩ := settled key ((List.mem_cons.mp member).resolve_left same)
        rw [others key same, log] at carried
        rw [log] at reaches
        exact ⟨reaches, carried⟩

/-- No crash, failed write or rebalance leaves the group where it could not
go on. From every reachable state it can come to one in which the partitions
asked for are consumed to their end, if nothing about their outstanding
messages stops the loop: then every accepted message of theirs is in its
landing table, and of those that were outstanding every rejected one in the
DLQ topic. -/
theorem Ingestor.catches_up (batching : ingestor.settings.Batches) {group : Group}
    (reach : Reach ingestor.Step .initial group) (tps : List TopicPartition)
    (subscribed : ∀ tp ∈ tps, ingestor.settings.Subscribed tp.topic)
    (passable : ∀ tp ∈ tps, ∀ offset value, group.shared.committed tp ≤ offset →
      (group.shared.log tp)[offset]? = some value → ingestor.Passable tp offset value) :
    ∃ later, Reach ingestor.Step group later ∧ later.shared.log = group.shared.log ∧
      ∀ tp ∈ tps, (group.shared.log tp).length ≤ later.shared.committed tp ∧
        ∀ offset value, (group.shared.log tp)[offset]? = some value →
          (∀ event, ingestor.Accepts tp.topic value event →
            event.eventId ∈ ingestor.landed later.shared.landing tp.topic) ∧
          ∀ reason, group.shared.committed tp ≤ offset → ingestor.Rejects tp.topic value reason →
            ∃ record ∈ later.shared.dlq, record.Carries ingestor.settings tp offset value := by
  obtain ⟨s, processes⟩ := group
  have crashed : ingestor.Runs (s, processes 0) (s, {}) := .single ⟨.crash, .crash, trivial⟩
  have restarted : ingestor.Runs (s, processes 0) (s, { phase := .polling }) := Alone.next crashed (.start rfl) trivial
  obtain ⟨after, next, runs, log, -, -, settled⟩ :=
    passes_all batching tps subscribed (s := s) (p := { phase := .polling }) rfl rfl rfl passable
  have here : Reach (Transition.Guarded ingestor.Step fun _ _ => True) ⟨s, processes⟩
      ⟨s, Function.update processes 0 (processes 0)⟩ :=
    (Function.update_eq_self 0 processes).symm ▸ .refl
  have onward : Reach ingestor.Step ⟨s, processes⟩ ⟨after, Function.update processes 0 next⟩ :=
    (Fleet.reach_alone here (restarted.trans runs) fun _ _ _ _ => trivial).forget_guard
  obtain ⟨ingested, -⟩ := ingested_of_reach (reach.trans onward)
  refine ⟨_, onward, log, fun tp member => ?_⟩
  obtain ⟨reaches, recorded⟩ := settled tp member
  refine ⟨reaches, fun offset value there => ⟨fun event accepts => ?_, fun reason above =>
    recorded offset value reason above there⟩⟩
  obtain ⟨inside, -⟩ := List.getElem?_eq_some_iff.mp there
  obtain ⟨stored, found, lands⟩ := ingested.committed tp offset (inside.trans_le reaches)
  rw [log] at found
  cases found.symm.trans there
  exact lands event accepts

/-- A label message that an ingestor died on before it wrote anything. -/
theorem Ingestor.abandoned_label_lands : ∃ group later, Reach oneLabelIngestor.Step .initial group ∧
    group.shared.landing.labels = [] ∧ Reach oneLabelIngestor.Step group later ∧
    Python.text "label-higgs-000000001" ∈ oneLabelIngestor.landed later.shared.landing labels0.topic := by
  let produced : Backend := Backend.empty.append labels0 (some publishedLabel)
  have started : Reach oneLabelIngestor.Step .initial ⟨produced, Function.update (fun _ => {}) 0 { phase := .polling }⟩ :=
    Reach.next (.next .refl (.inl (labels0, some publishedLabel)) (.environment rfl)) (.inr (0, .start))
      (.process (.start rfl))
  have polled := (started.next (.inr (0, .assign labels0)) (.process (.assign (by simp) (Or.inr rfl)))).next
    (.inr (0, .poll labels0)) (.process (.poll rfl (by decide) (by decide) rfl rfl))
  have died := polled.next (.inr (0, .crash)) (.process .crash)
  have subscribed : ∀ tp ∈ [labels0], oneLabelIngestor.settings.Subscribed tp.topic :=
    List.forall_mem_singleton.mpr (Or.inr rfl)
  have passable : ∀ tp ∈ [labels0], ∀ offset value, produced.committed tp ≤ offset →
      (produced.log tp)[offset]? = some value → oneLabelIngestor.Passable tp offset value := by
    refine List.forall_mem_singleton.mpr fun offset value _ there => ?_
    obtain ⟨inside, same⟩ := List.getElem?_eq_some_iff.mp there
    obtain rfl : offset = 0 := Nat.lt_one_iff.mp inside
    cases same
    refine ⟨(oneLabelIngestor.validate_returns_iff labels0.topic _).mp ⟨_, oneLabel_accepted⟩, fun event accepts => ?_⟩
    cases accepts.symm.trans oneLabel_accepted
    decide
  obtain ⟨later, onward, -, settled⟩ := Ingestor.catches_up ⟨by decide, by decide⟩ died [labels0] subscribed passable
  obtain ⟨-, lands⟩ := settled labels0 (List.mem_singleton_self _)
  exact ⟨_, later, died, rfl, onward, (lands 0 _ rfl).1 _ oneLabel_accepted⟩

end Amel
