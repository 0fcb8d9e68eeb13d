import Amel.Simulator.Runner

namespace Amel

open Transition

/-- What `producer.publish` does with one message. -/
inductive PublishResult
  | accepted
  | raises (fatal : Bool)
  deriving DecidableEq, Repr

/-- What the generators, the clock and the producer give for one row. The
second result is that of a duplicate's send. -/
structure Iteration where
  feature : FeatureDraw
  label : LabelDraw
  first : PublishResult
  second : PublishResult

/-- A label on its way through the dispatcher, and whether it goes out twice. -/
structure Dispatch where
  record : Record
  duplicate : Bool

/-- The loop of a `SimulatorRunner` and its counters. For the record stand
the feature messages accepted, the labels scheduled, the index at each
increment of `EVENTS_DROPPED`, and the rows taken up. -/
structure SimulatorLoop where
  runner : Runner
  running : Bool := true
  fatalError : Bool := false
  rowsRead : Nat := 0
  featuresPublished : Nat := 0
  labelsPublished : Nat := 0
  duplicatesPublished : Nat := 0
  malformedPublished : Nat := 0
  eventsDropped : Nat := 0
  pending : List Dispatch := []
  accepted : List Record := []
  scheduled : List Dispatch := []
  droppedFeatures : List Nat := []
  droppedLabels : List Nat := []
  taken : List (HiggsRow × Iteration) := []

namespace SimulatorLoop

/-- `_send` after the producer has accepted the message. -/
def sent (s : SimulatorLoop) (stream : Stream) (record : Record) (duplicate : Bool) : SimulatorLoop :=
  { s with
    featuresPublished := s.featuresPublished + if stream = .features then 1 else 0
    labelsPublished := s.labelsPublished + if stream = .labels then 1 else 0
    malformedPublished := s.malformedPublished + if record.malformed then 1 else 0
    duplicatesPublished := s.duplicatesPublished + if duplicate then 1 else 0
    accepted := s.accepted ++ if stream = .features then [record] else [] }

/-- One `_send`, and a second one of the same payload for a duplicate:
`some fatal` where a send raises. -/
def sendTwice (s : SimulatorLoop) (stream : Stream) (record : Record) (duplicate : Bool)
    (first second : PublishResult) : SimulatorLoop × Option Bool :=
  match first with
  | .raises fatal => (s, some fatal)
  | .accepted =>
    let s := s.sent stream record false
    if duplicate then
      match second with
      | .raises fatal => (s, some fatal)
      | .accepted => (s.sent stream record true, none)
    else (s, none)

/-- `_schedule_label`. `LabelEvent` takes a target of 0 or 1 and raises
ValidationError on any other. -/
def scheduleLabel (s : SimulatorLoop) (index : Nat) (row : HiggsRow) (draw : LabelDraw) :
    SimulatorLoop × Option Bool :=
  if 0 ≤ row.target ∧ row.target ≤ 1 then
    let dispatch : Dispatch := ⟨.label index (s.runner.rowOf index) row draw, draw.duplicate⟩
    ({ s with pending := s.pending ++ [dispatch], scheduled := s.scheduled ++ [dispatch] }, none)
  else (s, some false)

/-- `_on_publish_error`. -/
def onPublishError (s : SimulatorLoop) (stream : Stream) (index : Nat) (fatal : Bool) : SimulatorLoop :=
  { s with
    eventsDropped := s.eventsDropped + 1
    fatalError := s.fatalError || fatal
    droppedFeatures := s.droppedFeatures ++ if stream = .features then [index] else []
    droppedLabels := s.droppedLabels ++ if stream = .labels then [index] else [] }

/-- The `try` of the loop body: the feature, then the label. -/
def publish (s : SimulatorLoop) (index : Nat) (row : HiggsRow) (iteration : Iteration) :
    SimulatorLoop × Option Bool :=
  let record := Record.feature index (s.runner.rowOf index) row iteration.feature
  match s.sendTwice .features record iteration.feature.duplicate iteration.first iteration.second with
  | (s, some fatal) => (s, some fatal)
  | (s, none) => s.scheduleLabel index row iteration.label

/-- The body of `_loop` for the row taken up. A fatal error ends the loop. -/
def iterate (s : SimulatorLoop) (row : HiggsRow) (iteration : Iteration) : SimulatorLoop :=
  let index := s.runner.index
  let s := { s with
    rowsRead := s.rowsRead + 1
    runner := { s.runner with yielded := s.runner.yielded + 1 }
    taken := s.taken ++ [(row, iteration)] }
  match s.publish index row iteration with
  | (s, none) => s
  | (s, some fatal) => { s.onPublishError .features index fatal with running := s.running && !fatal }

/-- The callback that `_schedule_label` hands to the dispatcher. -/
def dispatch (s : SimulatorLoop) (label : Dispatch) (first second : PublishResult) : SimulatorLoop :=
  match s.sendTwice .labels label.record label.duplicate first second with
  | (s, none) => s
  | (s, some fatal) => s.onPublishError .labels label.record.index fatal

end SimulatorLoop

inductive LoopAction
  | take (iteration : Iteration)
  | dispatch (first second : PublishResult)
  | stop

/-- The loop takes up the next row, the dispatcher a label that is due; the
two threads go on independently. -/
inductive SimulatorLoop.Step : SimulatorLoop → LoopAction → SimulatorLoop → Prop
  | take {s row iteration} : s.running = true → s.runner.rows[s.runner.rowOf s.runner.index]? = some row →
      Step s (.take iteration) (s.iterate row iteration)
  | dispatch {s before label later first second} : s.pending = before ++ label :: later →
      Step s (.dispatch first second) ({ s with pending := before ++ later }.dispatch label first second)
  | stop {s} : Step s .stop { s with running := false }

/-- How many messages of the feature the producer accepts. -/
def Iteration.acceptedSends (iteration : Iteration) : Nat :=
  if iteration.first = .accepted then
    if iteration.feature.duplicate = true ∧ iteration.second = .accepted then 2 else 1
  else 0

/-- The whole body is gone through: every send is accepted and the label is a label. -/
def Iteration.Completes (row : HiggsRow) (iteration : Iteration) : Prop :=
  iteration.first = .accepted ∧ (iteration.feature.duplicate = true → iteration.second = .accepted) ∧
    0 ≤ row.target ∧ row.target ≤ 1

/-- Where the first send of a row is accepted, so is that of its duplicate,
and its target is 0 or 1. -/
def Iteration.GoesThrough (row : HiggsRow) (iteration : Iteration) : Prop :=
  iteration.first = .accepted → (iteration.feature.duplicate = true → iteration.second = .accepted) ∧
    0 ≤ row.target ∧ row.target ≤ 1

instance (row : HiggsRow) (iteration : Iteration) : Decidable (iteration.Completes row) := by
  unfold Iteration.Completes
  infer_instance

namespace SimulatorLoop

variable {s after : SimulatorLoop} {action : LoopAction} {startIndex : Nat} {rows : List HiggsRow}

/-- The records that sends leave alone. -/
def SameBooks (s after : SimulatorLoop) : Prop :=
  after.runner = s.runner ∧ after.taken = s.taken ∧ after.scheduled = s.scheduled ∧
    after.droppedFeatures = s.droppedFeatures

theorem sendTwice_books (s : SimulatorLoop) (stream : Stream) (record : Record) (duplicate : Bool)
    (first second : PublishResult) : s.SameBooks (s.sendTwice stream record duplicate first second).1 := by
  cases first with
  | raises fatal => exact ⟨rfl, rfl, rfl, rfl⟩
  | accepted =>
    cases duplicate with
    | false => exact ⟨rfl, rfl, rfl, rfl⟩
    | true => cases second <;> exact ⟨rfl, rfl, rfl, rfl⟩

/-- Both sends are accepted, or the first error leaves. -/
theorem sendTwice_returns_iff (s : SimulatorLoop) (stream : Stream) (record : Record) (duplicate : Bool)
    (first second : PublishResult) : (s.sendTwice stream record duplicate first second).2 = none ↔
      first = .accepted ∧ (duplicate = true → second = .accepted) := by
  cases first with
  | raises fatal => simp [sendTwice]
  | accepted =>
    cases duplicate with
    | false => simp [sendTwice]
    | true => cases second <;> simp [sendTwice]

theorem sendTwice_accepted (s : SimulatorLoop) (record : Record) (iteration : Iteration) :
    (s.sendTwice .features record iteration.feature.duplicate iteration.first iteration.second).1.accepted =
      s.accepted ++ List.replicate iteration.acceptedSends record := by
  obtain ⟨feature, label, first, second⟩ := iteration
  cases first with
  | raises fatal => simp [sendTwice, Iteration.acceptedSends]
  | accepted =>
    cases duplicate : feature.duplicate with
    | false => simp [sendTwice, Iteration.acceptedSends, sent, duplicate]
    | true => cases second <;> simp [sendTwice, Iteration.acceptedSends, sent, duplicate]

theorem sendTwice_labels_accepted (s : SimulatorLoop) (record : Record) (duplicate : Bool)
    (first second : PublishResult) :
    (s.sendTwice .labels record duplicate first second).1.accepted = s.accepted := by
  cases first with
  | raises fatal => rfl
  | accepted =>
    cases duplicate with
    | false => simp [sendTwice, sent]
    | true => cases second <;> simp [sendTwice, sent]

/-- A label is scheduled for a target of 0 or 1, and for no other. -/
theorem scheduleLabel_spec (s : SimulatorLoop) (index : Nat) (row : HiggsRow) (draw : LabelDraw) :
    let result := s.scheduleLabel index row draw
    result.1.runner = s.runner ∧ result.1.taken = s.taken ∧ result.1.droppedFeatures = s.droppedFeatures ∧
      result.1.accepted = s.accepted ∧ (result.2 = none ↔ 0 ≤ row.target ∧ row.target ≤ 1) ∧
      result.1.scheduled.map (·.record.index) =
        s.scheduled.map (·.record.index) ++ if 0 ≤ row.target ∧ row.target ≤ 1 then [index] else [] := by
  intro result
  by_cases target : 0 ≤ row.target ∧ row.target ≤ 1
  · simp only [result, scheduleLabel, if_pos target]
    refine ⟨trivial, trivial, trivial, trivial, iff_of_true trivial target, ?_⟩
    rw [List.map_append, List.map_singleton, (Record.label_of ..).1]
  · simp only [result, scheduleLabel, if_neg target, List.append_nil]
    exact ⟨trivial, trivial, trivial, trivial, iff_of_false (Option.some_ne_none _) target, trivial⟩

/-- The `try` of the loop body is gone through, and a label scheduled, where
the row completes. -/
theorem publish_spec (s : SimulatorLoop) (index : Nat) (row : HiggsRow) (iteration : Iteration) :
    let result := s.publish index row iteration
    result.1.runner = s.runner ∧ result.1.taken = s.taken ∧ result.1.droppedFeatures = s.droppedFeatures ∧
      result.1.accepted.map (·.index) = s.accepted.map (·.index) ++ List.replicate iteration.acceptedSends index ∧
      (result.2 = none ↔ iteration.Completes row) ∧
      result.1.scheduled.map (·.record.index) =
        s.scheduled.map (·.record.index) ++ if iteration.Completes row then [index] else [] := by
  intro result
  let record := Record.feature index (s.runner.rowOf index) row iteration.feature
  have named : record.index = index := (Record.feature_of ..).1
  have books := s.sendTwice_books .features record iteration.feature.duplicate iteration.first iteration.second
  have returns := s.sendTwice_returns_iff .features record iteration.feature.duplicate iteration.first
    iteration.second
  have accepts := s.sendTwice_accepted record iteration
  have isResult : result = match s.sendTwice .features record iteration.feature.duplicate iteration.first
      iteration.second with
    | (s, some fatal) => (s, some fatal)
    | (s, none) => s.scheduleLabel index row iteration.label := rfl
  generalize s.sendTwice .features record iteration.feature.duplicate iteration.first iteration.second = outcome
    at books returns accepts isResult
  obtain ⟨made, raised⟩ := outcome
  obtain ⟨sameRunner, sameTaken, sameScheduled, sameDropped⟩ := books
  have messages : made.accepted.map (·.index) =
      s.accepted.map (·.index) ++ List.replicate iteration.acceptedSends index := by
    rw [accepts, List.map_append, List.map_replicate, named]
  cases raised with
  | some fatal =>
    have broken : ¬iteration.Completes row := fun whole => by
      cases returns.mpr ⟨whole.1, whole.2.1⟩
    rw [isResult, if_neg broken, List.append_nil]
    exact ⟨sameRunner, sameTaken, sameDropped, messages, iff_of_false (Option.some_ne_none _) broken,
      congrArg (List.map _) sameScheduled⟩
  | none =>
    obtain ⟨firstAccepted, secondAccepted⟩ := returns.mp rfl
    have whole : iteration.Completes row ↔ 0 ≤ row.target ∧ row.target ≤ 1 :=
      ⟨fun completes => completes.2.2, fun target => ⟨firstAccepted, secondAccepted, target⟩⟩
    obtain ⟨runner, taken, dropped, accepted, through, scheduled⟩ := made.scheduleLabel_spec index row iteration.label
    simp only [isResult, whole]
    exact ⟨runner.trans sameRunner, taken.trans sameTaken, dropped.trans sameDropped,
      (congrArg (List.map _) accepted).trans messages, through, sameScheduled ▸ scheduled⟩

/-- What an iteration changes of the records kept: the messages accepted,
and a label or a drop. -/
theorem iterate_spec (s : SimulatorLoop) (row : HiggsRow) (iteration : Iteration) :
    let index := s.runner.index
    let after := s.iterate row iteration
    after.runner = { s.runner with yielded := s.runner.yielded + 1 } ∧ after.taken = s.taken ++ [(row, iteration)] ∧
      after.accepted.map (·.index) = s.accepted.map (·.index) ++ List.replicate iteration.acceptedSends index ∧
      after.scheduled.map (·.record.index) =
        s.scheduled.map (·.record.index) ++ (if iteration.Completes row then [index] else []) ∧
      after.droppedFeatures = s.droppedFeatures ++ if iteration.Completes row then [] else [index] := by
  intro index after
  let taken : SimulatorLoop := { s with
    rowsRead := s.rowsRead + 1
    runner := { s.runner with yielded := s.runner.yielded + 1 }
    taken := s.taken ++ [(row, iteration)] }
  have published := taken.publish_spec index row iteration
  have isAfter : after = match taken.publish index row iteration with
    | (s, none) => s
    | (s, some fatal) => { s.onPublishError .features index fatal with running := s.running && !fatal } := rfl
  generalize taken.publish index row iteration = outcome at published isAfter
  obtain ⟨made, raised⟩ := outcome
  obtain ⟨sameRunner, sameTaken, sameDropped, messages, through, scheduled⟩ := published
  cases raised with
  | none =>
    have whole : iteration.Completes row := through.mp rfl
    rw [isAfter, if_pos whole, if_pos whole]
    rw [if_pos whole] at scheduled
    exact ⟨sameRunner, sameTaken, messages, scheduled, sameDropped.trans (List.append_nil _).symm⟩
  | some fatal =>
    have broken : ¬iteration.Completes row := fun whole => by cases through.mpr whole
    rw [isAfter, if_neg broken, if_neg broken]
    rw [if_neg broken] at scheduled
    exact ⟨sameRunner, sameTaken, messages, scheduled, congrArg (· ++ [index]) sameDropped⟩

/-- The dispatcher's thread leaves the books of the rows alone. -/
theorem dispatch_books (s : SimulatorLoop) (label : Dispatch) (first second : PublishResult) :
    s.SameBooks (s.dispatch label first second) ∧ (s.dispatch label first second).accepted = s.accepted := by
  have books := s.sendTwice_books .labels label.record label.duplicate first second
  have accepts := s.sendTwice_labels_accepted label.record label.duplicate first second
  rw [dispatch]
  generalize s.sendTwice .labels label.record label.duplicate first second = outcome at books accepts ⊢
  obtain ⟨made, raised⟩ := outcome
  cases raised with
  | none => exact ⟨books, accepts⟩
  | some fatal => exact ⟨⟨books.1, books.2.1, books.2.2.1, (List.append_nil _).trans books.2.2.2⟩, accepts⟩

/-- How often the producer accepted a feature message of an index, its
label was scheduled and its feature was counted as dropped. -/
def acceptedFor (s : SimulatorLoop) (index : Nat) : Nat := (s.accepted.map (·.index)).count index

def scheduledFor (s : SimulatorLoop) (index : Nat) : Nat := (s.scheduled.map (·.record.index)).count index

def droppedFor (s : SimulatorLoop) (index : Nat) : Nat := s.droppedFeatures.count index

/-- The books agree with the rows taken up, one index for each. -/
structure Booked (s : SimulatorLoop) : Prop where
  yielded : s.runner.yielded = s.taken.length
  rows : ∀ (k : Nat) row iteration, s.taken[k]? = some (row, iteration) →
    s.acceptedFor (s.runner.startIndex + k) = iteration.acceptedSends ∧
      s.scheduledFor (s.runner.startIndex + k) = (if iteration.Completes row then 1 else 0) ∧
      s.droppedFor (s.runner.startIndex + k) = if iteration.Completes row then 0 else 1
  beyond : ∀ k, s.taken.length ≤ k → s.acceptedFor (s.runner.startIndex + k) = 0 ∧
    s.scheduledFor (s.runner.startIndex + k) = 0 ∧ s.droppedFor (s.runner.startIndex + k) = 0

/-- An iteration adds to the books of its own index only. -/
theorem iterate_counts (s : SimulatorLoop) (row : HiggsRow) (iteration : Iteration) (index : Nat) :
    (s.iterate row iteration).acceptedFor index =
        s.acceptedFor index + (if s.runner.index = index then iteration.acceptedSends else 0) ∧
      (s.iterate row iteration).scheduledFor index =
        s.scheduledFor index + (if s.runner.index = index ∧ iteration.Completes row then 1 else 0) ∧
      (s.iterate row iteration).droppedFor index =
        s.droppedFor index + if s.runner.index = index ∧ ¬iteration.Completes row then 1 else 0 := by
  obtain ⟨_, _, accepted, scheduled, dropped⟩ := s.iterate_spec row iteration
  rw [acceptedFor, accepted, scheduledFor, scheduled, droppedFor, dropped, List.count_append, List.count_append,
    List.count_append]
  refine ⟨?_, ?_, ?_⟩
  · rw [List.count_replicate, acceptedFor]
    simp only [beq_iff_eq]
  · rw [scheduledFor]
    by_cases whole : iteration.Completes row
    · simp [whole, List.count_singleton]
    · simp [whole]
  · rw [droppedFor]
    by_cases whole : iteration.Completes row
    · simp [whole]
    · simp [whole, List.count_singleton]

theorem Booked.iterate (booked : s.Booked) (row : HiggsRow) (iteration : Iteration) :
    (s.iterate row iteration).Booked := by
  obtain ⟨runner, taken, _⟩ := s.iterate_spec row iteration
  have counts := s.iterate_counts row iteration
  have index : s.runner.index = s.runner.startIndex + s.taken.length := by rw [Runner.index, booked.yielded]
  have start : (s.iterate row iteration).runner.startIndex = s.runner.startIndex := by rw [runner]
  have length : (s.iterate row iteration).taken.length = s.taken.length + 1 := by
    rw [taken, List.length_append, List.length_singleton]
  refine ⟨?_, fun k other drawn found => ?_, fun k past => ?_⟩
  · rw [length, runner, ← booked.yielded]
  · obtain ⟨accepted, scheduled, dropped⟩ := counts (s.runner.startIndex + k)
    rw [start, accepted, scheduled, dropped, index]
    rw [taken] at found
    rcases Nat.lt_or_ge k s.taken.length with earlier | last
    · rw [List.getElem?_append_left earlier] at found
      have apart : s.runner.startIndex + s.taken.length ≠ s.runner.startIndex + k := by omega
      simpa only [apart, if_false, false_and, Nat.add_zero] using booked.rows k other drawn found
    · have here : k = s.taken.length := by
        have bound := (List.getElem?_eq_some_iff.mp found).1
        rw [List.length_append, List.length_singleton] at bound
        omega
      subst here
      rw [List.getElem?_concat_length] at found
      cases found
      obtain ⟨noAccepted, noScheduled, noDropped⟩ := booked.beyond s.taken.length le_rfl
      rw [noAccepted, noScheduled, noDropped]
      by_cases whole : iteration.Completes row
      · simp [whole]
      · simp [whole]
  · obtain ⟨accepted, scheduled, dropped⟩ := counts (s.runner.startIndex + k)
    rw [length] at past
    have apart : s.runner.startIndex + s.taken.length ≠ s.runner.startIndex + k := by omega
    rw [start, accepted, scheduled, dropped, index]
    simpa only [apart, if_false, false_and, Nat.add_zero] using booked.beyond k (by omega)

theorem Booked.congr (booked : s.Booked) (books : s.SameBooks after) (accepted : after.accepted = s.accepted) :
    after.Booked := by
  obtain ⟨runner, taken, scheduled, dropped⟩ := books
  have counts (index : Nat) : after.acceptedFor index = s.acceptedFor index ∧
      after.scheduledFor index = s.scheduledFor index ∧ after.droppedFor index = s.droppedFor index := by
    rw [acceptedFor, accepted, scheduledFor, scheduled, droppedFor, dropped]
    exact ⟨rfl, rfl, rfl⟩
  refine ⟨?_, fun k row iteration found => ?_, fun k past => ?_⟩
  · rw [runner, taken, booked.yielded]
  · rw [runner, (counts _).1, (counts _).2.1, (counts _).2.2]
    exact booked.rows k row iteration (taken ▸ found)
  · rw [runner, (counts _).1, (counts _).2.1, (counts _).2.2]
    exact booked.beyond k (taken ▸ past)

theorem Booked.step (booked : s.Booked) (taken : s.Step action after) : after.Booked := by
  cases taken with
  | take => exact booked.iterate _ _
  | @dispatch before label later first second =>
    have popped : { s with pending := before ++ later }.Booked := booked.congr ⟨rfl, rfl, rfl, rfl⟩ rfl
    obtain ⟨books, accepted⟩ := SimulatorLoop.dispatch_books { s with pending := before ++ later } label first second
    exact popped.congr books accepted
  | stop => exact booked.congr ⟨rfl, rfl, rfl, rfl⟩ rfl

/-- A loop before its first row. -/
def initial (startIndex : Nat) (rows : List HiggsRow) : SimulatorLoop := { runner := { startIndex, rows } }

theorem initial_booked (startIndex : Nat) (rows : List HiggsRow) : (initial startIndex rows).Booked :=
  ⟨rfl, fun k row iteration found => by simp [initial] at found, fun _ _ => ⟨rfl, rfl, rfl⟩⟩

/-- A row with a feature message accepted has its label scheduled once and
is not counted as dropped; a row with none is counted once and has none. -/
def Conserves (s : SimulatorLoop) (index : Nat) : Prop :=
  if 0 < s.acceptedFor index then s.scheduledFor index = 1 ∧ s.droppedFor index = 0
  else s.scheduledFor index = 0 ∧ s.droppedFor index = 1

instance (s : SimulatorLoop) (index : Nat) : Decidable (s.Conserves index) := by
  unfold Conserves
  infer_instance

theorem Booked.row_conserved_iff (booked : s.Booked) {k : Nat} {row : HiggsRow} {iteration : Iteration}
    (found : s.taken[k]? = some (row, iteration)) :
    s.Conserves (s.runner.startIndex + k) ↔ iteration.GoesThrough row := by
  obtain ⟨accepted, scheduled, dropped⟩ := booked.rows k row iteration found
  rw [Conserves, accepted, scheduled, dropped]
  by_cases first : iteration.first = .accepted
  · have sends : 0 < iteration.acceptedSends := by
      rw [Iteration.acceptedSends, if_pos first]
      split <;> decide
    rw [if_pos sends]
    by_cases whole : iteration.Completes row
    · have through : iteration.GoesThrough row := fun _ => whole.2
      simp [whole, through]
    · have broken : ¬iteration.GoesThrough row := fun through => whole ⟨first, through first⟩
      simp [whole, broken]
  · have sends : iteration.acceptedSends = 0 := by rw [Iteration.acceptedSends, if_neg first]
    have incomplete : ¬iteration.Completes row := fun whole => first whole.1
    have through : iteration.GoesThrough row := fun accepted => absurd accepted first
    simp [sends, incomplete, through]

/-- In every run each row taken up so far is conserved exactly when every
row goes through whose first send is accepted. -/
theorem conserves_iff (reach : Reach Step (initial startIndex rows) s) :
    (∀ k < s.taken.length, s.Conserves (s.runner.startIndex + k)) ↔
      ∀ row iteration, (row, iteration) ∈ s.taken → iteration.GoesThrough row := by
  have booked := reach.invariant Booked (initial_booked startIndex rows) fun _ _ _ _ holds taken => holds.step taken
  constructor
  · intro conserved row iteration member
    obtain ⟨k, found⟩ := List.mem_iff_getElem?.mp member
    exact (booked.row_conserved_iff found).mp (conserved k (List.getElem?_eq_some_iff.mp found).1)
  · intro through k inside
    have found := List.getElem?_eq_getElem inside
    exact (booked.row_conserved_iff found).mpr (through _ _ (List.mem_of_getElem? found))

/-- A row all of whose sends are accepted. -/
theorem row_conserved :
    let row : HiggsRow := ⟨1, higgsFeatureNames.map fun name => (name, .literal (Python.text "0.5"))⟩
    let iteration : Iteration := ⟨⟨[], [], none, true⟩, ⟨[], none, false⟩, .accepted, .accepted⟩
    ∀ k < 1, ((initial 0 [row]).iterate row iteration).Conserves (0 + k) := by
  intro row iteration
  have reach : Reach Step (initial 0 [row]) ((initial 0 [row]).iterate row iteration) :=
    Reach.next .refl (.take iteration) (.take rfl rfl)
  refine (conserves_iff reach).mpr fun other drawn member => ?_
  cases List.mem_singleton.mp member
  exact fun _ => ⟨fun _ => rfl, by decide⟩

/-- The feature is accepted and the send of its duplicate fails: the row is
counted as dropped and never gets a label. -/
theorem duplicate_loses_label :
    ¬∀ (startIndex : Nat) (rows : List HiggsRow) (s : SimulatorLoop), Reach Step (initial startIndex rows) s →
      ∀ k < s.taken.length, s.Conserves (s.runner.startIndex + k) := by
  intro conserved
  let row : HiggsRow := ⟨1, higgsFeatureNames.map fun name => (name, .literal (Python.text "0.5"))⟩
  let iteration : Iteration := ⟨⟨[], [], none, true⟩, ⟨[], none, false⟩, .accepted, .raises false⟩
  have reach : Reach Step (initial 0 [row]) ((initial 0 [row]).iterate row iteration) :=
    Reach.next .refl (.take iteration) (.take rfl rfl)
  exact absurd (conserved 0 [row] _ reach 0 (by decide)) (by decide)

end SimulatorLoop

end Amel
