import Mathlib.Order.Lattice
import Amel.Ingestor.Columns

namespace Amel

open Python (Bytes b64encode)
open Python.Json (LoadsError)

structure TopicPartition where
  topic : String
  partition : Nat
  deriving DecidableEq, Repr

/-- A polled message. The client types topic, partition and offset as
optional; a delivered message has all three. -/
structure Message where
  topic : Option String
  partition : Option Nat
  offset : Option Nat
  value : Option Bytes
  deriving DecidableEq, Repr

def Message.delivered (tp : TopicPartition) (offset : Nat) (value : Option Bytes) : Message :=
  ⟨some tp.topic, some tp.partition, some offset, value⟩

/-- The envelope `DlqProducer.send` publishes, with the topic it goes to. -/
structure DlqRecord where
  dlqTopic : String
  originalTopic : String
  originalPartition : Nat
  originalOffset : Nat
  reason : String
  rawValueBase64 : List Char
  failedAt : Int
  deriving DecidableEq, Repr

/-- What ends the consume loop with an exception before anything is written. -/
inductive LoopError
  | loads (raised : LoadsError)
  | noDlqTopic
  | produce
  deriving DecidableEq, Repr

/-- Where the body of the batch loop takes one message. -/
inductive Route
  | missingMetadata
  | feature (row : Row FeatureEvent)
  | label (row : Row LabelEvent)
  | deadLetter (record : DlqRecord)
  | raises (error : LoopError)

namespace Route

/-- The row of an accepted event, of either class. -/
def row : Route → Option (Row Event)
  | .feature row => some (row.map .feature)
  | .label row => some (row.map .label)
  | _ => none

def featuresRow : Route → Option (Row FeatureEvent)
  | .feature row => some row
  | _ => none

def labelsRow : Route → Option (Row LabelEvent)
  | .label row => some row
  | _ => none

def dlqRecord : Route → Option DlqRecord
  | .deadLetter record => some record
  | _ => none

def error : Route → Option LoopError
  | .raises error => some error
  | _ => none

end Route

/-- The outside of one pass over a batch: whether the producer takes a
record into its queue, and the clock at each message's send. -/
structure Outside where
  takes : DlqRecord → Bool
  clock : Message → Int

def Ingestor.dlqRecord (ingestor : Ingestor) (outside : Outside) (msg : Message) (tp : TopicPartition)
    (offset : Nat) (reason : String) : Option DlqRecord :=
  (ingestor.settings.dlqTopicFor tp.topic).map fun dlqTopic =>
    { dlqTopic, originalTopic := tp.topic, originalPartition := tp.partition, originalOffset := offset
      reason := if reason.isEmpty then "unknown_validation_error" else reason
      rawValueBase64 := b64encode (msg.value.getD []), failedAt := outside.clock msg }

/-- The body of the loop of `_process_batch_inner`. The row list is chosen by
the topic in the source, which is the class of the event. -/
def Ingestor.route (ingestor : Ingestor) (outside : Outside) (msg : Message) : Route :=
  match msg.topic, msg.partition, msg.offset with
  | some topic, some partition, some offset =>
    match ingestor.validate topic msg.value with
    | .error raised => .raises (.loads raised)
    | .ok (.error reason) =>
      match ingestor.dlqRecord outside msg ⟨topic, partition⟩ offset reason with
      | none => .raises .noDlqTopic
      | some record => if outside.takes record then .deadLetter record else .raises .produce
    | .ok (.ok (.feature event)) => .feature ⟨event, partition, offset⟩
    | .ok (.ok (.label event)) => .label ⟨event, partition, offset⟩
  | _, _, _ => .missingMetadata

/-- Where the loop takes an accepted message. -/
def Event.route (event : Event) (tp : TopicPartition) (offset : Nat) : Route :=
  match event with
  | .feature event => .feature ⟨event, tp.partition, offset⟩
  | .label event => .label ⟨event, tp.partition, offset⟩

/-- `max_offset[key] = max(max_offset.get(key, -1), offset)`. -/
def bump (offset : Nat) (tp : TopicPartition) : List (TopicPartition × Nat) → List (TopicPartition × Nat)
  | [] => [(tp, offset)]
  | (key, top) :: rest => if key = tp then (key, max top offset) :: rest else (key, top) :: bump offset tp rest

/-- The local variables of `_process_batch_inner`, and the records it handed
to the DLQ producer. -/
structure Batch where
  featuresRows : List (Row FeatureEvent) := []
  labelsRows : List (Row LabelEvent) := []
  maxOffset : List (TopicPartition × Nat) := []
  sends : List DlqRecord := []

/-- The rows of both lists. -/
def Batch.rows (batch : Batch) : List (Row Event) :=
  batch.featuresRows.map (·.map .feature) ++ batch.labelsRows.map (·.map .label)

def Batch.absorb (batch : Batch) (msg : Message) (route : Route) : Batch where
  featuresRows := batch.featuresRows ++ route.featuresRow.toList
  labelsRows := batch.labelsRows ++ route.labelsRow.toList
  sends := batch.sends ++ route.dlqRecord.toList
  maxOffset := match msg.topic, msg.partition, msg.offset with
    | some topic, some partition, some offset => bump offset ⟨topic, partition⟩ batch.maxOffset
    | _, _, _ => batch.maxOffset

/-- The loop of `_process_batch_inner` up to its end or its first exception.
Records already handed to the producer stay handed over. -/
def Ingestor.processMessages (ingestor : Ingestor) (outside : Outside) :
    Batch → List Message → Batch × Option LoopError
  | batch, [] => (batch, none)
  | batch, msg :: rest =>
    let route := ingestor.route outside msg
    match route.error with
    | some raised => (batch.absorb msg route, some raised)
    | none => ingestor.processMessages outside (batch.absorb msg route) rest

/-- The offsets `_process_batch_inner` commits: one past the largest it saw. -/
def Batch.offsets (batch : Batch) : List (TopicPartition × Nat) :=
  batch.maxOffset.map fun (tp, top) => (tp, top + 1)

/-- `_write_batch`: one transaction, whose start stamps the rows. -/
def Batch.write (batch : Batch) (now : Int) (landing : Landing) : Landing :=
  landing.insert (batch.featuresRows.map (·.toFeature now)) (batch.labelsRows.map (·.toLabel now))

inductive LandingStatement
  | insertFeatures (rows : List HiggsFeatureEvent)
  | insertLabels (rows : List HiggsLabelEvent)

/-- The statements of `_write_batch`; a table without rows is passed over. -/
def Batch.statements (work : Batch) (now : Int) : List LandingStatement :=
  (if work.featuresRows = [] then [] else [.insertFeatures (work.featuresRows.map (·.toFeature now))]) ++
    if work.labelsRows = [] then [] else [.insertLabels (work.labelsRows.map (·.toLabel now))]

def LandingStatement.boundRows : LandingStatement → List BoundRow
  | insertFeatures rows => rows.map (·.bound)
  | insertLabels rows => rows.map (·.bound)

/-- No INSERT of the batch has more bind parameters than the protocol counts. -/
def Batch.withinLimit (work : Batch) (now : Int) : Bool :=
  (work.statements now).all fun statement => (bindParameters statement.boundRows).length ≤ maxBindParameters

/-- A healthy database takes the batch: its statements are within the limit
and the columns hold every row. -/
def Batch.storable (work : Batch) (floats : FloatDump) (now : Int) : Bool :=
  work.withinLimit now && work.rows.all (·.storable floats)

def Event.isFeature : Event → Bool
  | .feature _ => true
  | .label _ => false

def Event.isLabel : Event → Bool
  | .feature _ => false
  | .label _ => true

/-- The message is accepted as an event of some kind. -/
def Ingestor.acceptsAs (ingestor : Ingestor) (kind : Event → Bool) (msg : Message) : Bool :=
  match msg.topic with
  | none => false
  | some topic =>
    match ingestor.validate topic msg.value with
    | .ok (.ok event) => kind event
    | _ => false

/-- The accepted messages of a batch are few enough for one INSERT into each table. -/
def Ingestor.WithinLimit (ingestor : Ingestor) (batch : List Message) : Prop :=
  batch.countP (ingestor.acceptsAs Event.isFeature) * 9 ≤ maxBindParameters ∧
    batch.countP (ingestor.acceptsAs Event.isLabel) * 7 ≤ maxBindParameters

/-- The columns hold the row of every accepted message of a batch. -/
def Ingestor.ColumnsHold (ingestor : Ingestor) (batch : List Message) : Prop :=
  ∀ tp offset value event, Message.delivered tp offset value ∈ batch → ingestor.Accepts tp.topic value event →
    event.storable ingestor.pydantic.floats tp.partition offset = true

theorem mem_bump {offset top : Nat} {tp key : TopicPartition} {tops : List (TopicPartition × Nat)}
    (member : (key, top) ∈ bump offset tp tops) : (key, top) ∈ tops ∨ key = tp ∧ top = offset := by
  induction tops with
  | nil =>
    simp only [bump, List.mem_singleton, Prod.mk.injEq] at member
    exact Or.inr member
  | cons head rest ih =>
    obtain ⟨k, t⟩ := head
    unfold bump at member
    split at member
    · rename_i same
      rcases List.mem_cons.mp member with equal | old
      · obtain ⟨rfl, rfl⟩ := Prod.mk.inj equal
        rcases le_total offset t with below | above
        · exact Or.inl (by rw [max_eq_left below]; exact List.mem_cons_self ..)
        · exact Or.inr ⟨same, max_eq_right above⟩
      · exact Or.inl (List.mem_cons_of_mem _ old)
    · rcases List.mem_cons.mp member with equal | old
      · exact Or.inl (equal ▸ List.mem_cons_self ..)
      · exact (ih old).imp_left (List.mem_cons_of_mem _)

theorem bump_keeps {offset top : Nat} {tp key : TopicPartition} {tops : List (TopicPartition × Nat)}
    (member : (key, top) ∈ tops) : ∃ higher, top ≤ higher ∧ (key, higher) ∈ bump offset tp tops := by
  induction tops with
  | nil => simp at member
  | cons head rest ih =>
    obtain ⟨k, t⟩ := head
    unfold bump
    split
    · rcases List.mem_cons.mp member with equal | old
      · obtain ⟨rfl, rfl⟩ := Prod.mk.inj equal
        exact ⟨_, le_max_left _ _, List.mem_cons_self ..⟩
      · exact ⟨top, le_rfl, List.mem_cons_of_mem _ old⟩
    · rcases List.mem_cons.mp member with equal | old
      · exact ⟨top, le_rfl, equal ▸ List.mem_cons_self ..⟩
      · obtain ⟨higher, above, found⟩ := ih old
        exact ⟨higher, above, List.mem_cons_of_mem _ found⟩

theorem bump_covers (offset : Nat) (tp : TopicPartition) (tops : List (TopicPartition × Nat)) :
    ∃ higher, offset ≤ higher ∧ (tp, higher) ∈ bump offset tp tops := by
  induction tops with
  | nil => exact ⟨offset, le_rfl, List.mem_singleton.mpr rfl⟩
  | cons head rest ih =>
    obtain ⟨k, t⟩ := head
    unfold bump
    split
    · rename_i same
      subst same
      exact ⟨_, le_max_right _ _, List.mem_cons_self ..⟩
    · obtain ⟨higher, above, found⟩ := ih
      exact ⟨higher, above, List.mem_cons_of_mem _ found⟩

/-- 9 parameters for a feature row and 7 for a label row. -/
theorem Batch.withinLimit_iff {work : Batch} (now : Int) : work.withinLimit now = true ↔
    work.featuresRows.length * 9 ≤ maxBindParameters ∧ work.labelsRows.length * 7 ≤ maxBindParameters := by
  rw [withinLimit, statements, List.all_append, Bool.and_eq_true]
  refine and_congr ?_ ?_
  · split
    · simp [*]
    · rw [List.all_cons, List.all_nil, Bool.and_true, decide_eq_true_eq, LandingStatement.boundRows,
        length_bindParameters 9 _ fun _ => rfl, List.length_map]
  · split
    · simp [*]
    · rw [List.all_cons, List.all_nil, Bool.and_true, decide_eq_true_eq, LandingStatement.boundRows,
        length_bindParameters 7 _ fun _ => rfl, List.length_map]

theorem Batch.storable_iff {work : Batch} {floats : FloatDump} {now : Int} : work.storable floats now = true ↔
    (work.featuresRows.length * 9 ≤ maxBindParameters ∧ work.labelsRows.length * 7 ≤ maxBindParameters) ∧
      ∀ row ∈ work.rows, row.storable floats = true := by
  rw [storable, Bool.and_eq_true, withinLimit_iff, List.all_eq_true]

/-- Without rows there is nothing to refuse. -/
theorem Batch.storable_nothing {work : Batch} (floats : FloatDump) (now : Int) (noFeatures : work.featuresRows = [])
    (noLabels : work.labelsRows = []) : work.storable floats now = true := by
  rw [storable_iff, rows, noFeatures, noLabels]
  exact ⟨⟨Nat.zero_le _, Nat.zero_le _⟩, List.forall_mem_nil _⟩

theorem Batch.feature_mem_rows {work : Batch} {row : Row FeatureEvent} (member : row ∈ work.featuresRows) :
    row.map .feature ∈ work.rows := List.mem_append_left _ (List.mem_map_of_mem member)

theorem Batch.label_mem_rows {work : Batch} {row : Row LabelEvent} (member : row ∈ work.labelsRows) :
    row.map .label ∈ work.rows := List.mem_append_right _ (List.mem_map_of_mem member)

/-- Where a message with all its metadata was read. -/
def Message.At (msg : Message) (tp : TopicPartition) (offset : Nat) : Prop :=
  msg.topic = some tp.topic ∧ msg.partition = some tp.partition ∧ msg.offset = some offset

theorem Message.delivered_at (tp : TopicPartition) (offset : Nat) (value : Option Bytes) :
    (Message.delivered tp offset value).At tp offset := ⟨rfl, rfl, rfl⟩

namespace Ingestor

variable {ingestor : Ingestor} {outside : Outside} {start work : Batch} {batch : List Message}
  {tp : TopicPartition} {offset : Nat} {value : Option Bytes}

theorem route_of_accepts {event : Event} (accepts : ingestor.Accepts tp.topic value event) (outside : Outside)
    (offset : Nat) : ingestor.route outside (.delivered tp offset value) = event.route tp offset := by
  unfold Accepts at accepts
  cases event <;> simp only [route, Message.delivered, accepts, Event.route]

theorem row_route_iff {row : Row Event} :
    (ingestor.route outside (.delivered tp offset value)).row = some row ↔
      ingestor.Accepts tp.topic value row.event ∧ row.kafkaPartition = tp.partition ∧ row.kafkaOffset = offset := by
  obtain ⟨event, partition, place⟩ := row
  unfold Accepts
  simp only [route, Message.delivered]
  rcases ingestor.validate tp.topic value with raised | reason | event | event
  · simp [Route.row]
  · simp only [reduceCtorEq, Except.ok.injEq, false_and, iff_false]
    split
    · simp [Route.row]
    · split <;> simp [Route.row]
  · simp [Route.row, Row.map, eq_comm]
  · simp [Route.row, Row.map, eq_comm]

/-- A rejected message that raises nothing was handed to the DLQ producer. -/
theorem dlqRecord_route {reason : String} (rejects : ingestor.Rejects tp.topic value reason)
    (quiet : (ingestor.route outside (.delivered tp offset value)).error = none) :
    ∃ record, (ingestor.route outside (.delivered tp offset value)).dlqRecord = some record ∧
      ingestor.dlqRecord outside (.delivered tp offset value) tp offset reason = some record := by
  unfold Rejects at rejects
  simp only [route, Message.delivered, rejects] at quiet ⊢
  split at quiet
  · simp [Route.error] at quiet
  · rename_i record found
    split at quiet
    · rename_i taken
      exact ⟨record, by simp [taken, Route.dlqRecord], found⟩
    · simp [Route.error] at quiet

/-- What the loop makes of a batch in which nothing raises. -/
def absorbAll (ingestor : Ingestor) (outside : Outside) (start : Batch) (batch : List Message) : Batch :=
  batch.foldl (fun work msg => work.absorb msg (ingestor.route outside msg)) start

@[simp] theorem absorbAll_nil : ingestor.absorbAll outside start [] = start := rfl

theorem absorbAll_cons (msg : Message) : ingestor.absorbAll outside start (msg :: batch) =
    ingestor.absorbAll outside (start.absorb msg (ingestor.route outside msg)) batch := rfl

theorem processMessages_finished_iff : ingestor.processMessages outside start batch = (work, none) ↔
    (∀ msg ∈ batch, (ingestor.route outside msg).error = none) ∧ ingestor.absorbAll outside start batch = work := by
  induction batch generalizing start with
  | nil => simp [processMessages, absorbAll]
  | cons msg rest ih =>
    rw [processMessages]
    cases raised : (ingestor.route outside msg).error with
    | some error => simp [raised]
    | none => simp [raised, ih, absorbAll]

/-- A list that each message adds its own part to. -/
theorem absorbAll_list {Item : Type} {list : Batch → List Item} {part : Route → Option Item}
    (absorbs : ∀ work msg route, list (Batch.absorb work msg route) = list work ++ (part route).toList) :
    list (ingestor.absorbAll outside start batch) =
      list start ++ batch.flatMap fun msg => (part (ingestor.route outside msg)).toList := by
  induction batch generalizing start with
  | nil => simp
  | cons msg rest ih => rw [absorbAll_cons, ih, List.flatMap_cons, absorbs, List.append_assoc]

theorem absorbAll_featuresRows : (ingestor.absorbAll outside start batch).featuresRows =
    start.featuresRows ++ batch.flatMap fun msg => (ingestor.route outside msg).featuresRow.toList :=
  absorbAll_list fun _ _ _ => rfl

theorem absorbAll_labelsRows : (ingestor.absorbAll outside start batch).labelsRows =
    start.labelsRows ++ batch.flatMap fun msg => (ingestor.route outside msg).labelsRow.toList :=
  absorbAll_list fun _ _ _ => rfl

theorem absorbAll_sends : (ingestor.absorbAll outside start batch).sends =
    start.sends ++ batch.flatMap fun msg => (ingestor.route outside msg).dlqRecord.toList :=
  absorbAll_list fun _ _ _ => rfl

/-- The rows of a batch are those its messages become. -/
theorem mem_absorbAll_rows {row : Row Event} : row ∈ (ingestor.absorbAll outside {} batch).rows ↔
    ∃ msg ∈ batch, (ingestor.route outside msg).row = some row := by
  have either (route : Route) : route.row = some row ↔
      (∃ read, route.featuresRow = some read ∧ read.map .feature = row) ∨
        ∃ read, route.labelsRow = some read ∧ read.map .label = row := by
    cases route <;> simp [Route.row, Route.featuresRow, Route.labelsRow]
  simp only [Batch.rows, absorbAll_featuresRows, absorbAll_labelsRows, List.nil_append, List.mem_append, List.mem_map,
    List.mem_flatMap, Option.mem_toList, either]
  constructor
  · rintro (⟨read, ⟨msg, member, routed⟩, same⟩ | ⟨read, ⟨msg, member, routed⟩, same⟩)
    · exact ⟨msg, member, Or.inl ⟨read, routed, same⟩⟩
    · exact ⟨msg, member, Or.inr ⟨read, routed, same⟩⟩
  · rintro ⟨msg, member, ⟨read, routed, same⟩ | ⟨read, routed, same⟩⟩
    · exact Or.inl ⟨read, ⟨msg, member, routed⟩, same⟩
    · exact Or.inr ⟨read, ⟨msg, member, routed⟩, same⟩

theorem row_any_route (kind : Event → Bool) :
    (ingestor.route outside (.delivered tp offset value)).row.any (kind ·.event) =
      ingestor.acceptsAs kind (.delivered tp offset value) := by
  simp only [route, acceptsAs, Message.delivered]
  rcases ingestor.validate tp.topic value with raised | reason | event | event
  · rfl
  · dsimp only
    split
    · rfl
    · split <;> rfl
  · rfl
  · rfl

/-- Each accepted message is one row in the list of its class. -/
theorem absorbAll_sizes (delivered : ∀ msg ∈ batch, ∃ tp offset value, msg = .delivered tp offset value) :
    (ingestor.absorbAll outside {} batch).featuresRows.length = batch.countP (ingestor.acceptsAs Event.isFeature) ∧
      (ingestor.absorbAll outside {} batch).labelsRows.length = batch.countP (ingestor.acceptsAs Event.isLabel) := by
  have counted {Model : Type} (part : Route → Option (Row Model)) (kind : Event → Bool)
      (some : ∀ route, (part route).isSome = route.row.any (kind ·.event)) :
      (batch.flatMap fun msg => (part (ingestor.route outside msg)).toList).length =
        batch.countP (ingestor.acceptsAs kind) := by
    rw [← List.filterMap_eq_flatMap_toList, List.length_filterMap_eq_countP]
    refine List.countP_congr fun msg member => ?_
    obtain ⟨tp, offset, value, rfl⟩ := delivered msg member
    rw [some, row_any_route]
  rw [absorbAll_featuresRows, absorbAll_labelsRows, List.nil_append, List.nil_append]
  exact ⟨counted Route.featuresRow Event.isFeature fun route => by cases route <;> rfl,
    counted Route.labelsRow Event.isLabel fun route => by cases route <;> rfl⟩

/-- 7281 rows of 9 parameters are 65529. -/
theorem withinLimit_of_length (ingestor : Ingestor) (few : batch.length ≤ 7281) : ingestor.WithinLimit batch := by
  have features := List.countP_le_length (p := ingestor.acceptsAs Event.isFeature) (l := batch)
  have labels := List.countP_le_length (p := ingestor.acceptsAs Event.isLabel) (l := batch)
  rw [WithinLimit, maxBindParameters]
  omega

/-- A healthy database takes what the loop made of a batch exactly when the
columns hold its accepted messages and these are few enough. -/
theorem absorbAll_storable_iff (outside : Outside) (now : Int)
    (delivered : ∀ msg ∈ batch, ∃ tp offset value, msg = .delivered tp offset value) :
    (ingestor.absorbAll outside {} batch).storable ingestor.pydantic.floats now = true ↔
      ingestor.WithinLimit batch ∧ ingestor.ColumnsHold batch := by
  rw [Batch.storable_iff, (absorbAll_sizes delivered).1, (absorbAll_sizes delivered).2]
  refine and_congr_right fun _ => ⟨fun holds tp offset value event member accepts => ?_, fun holds row member => ?_⟩
  · exact holds ⟨event, tp.partition, offset⟩
      (mem_absorbAll_rows.mpr ⟨_, member, row_route_iff.mpr ⟨accepts, rfl, rfl⟩⟩)
  · obtain ⟨msg, inBatch, routed⟩ := mem_absorbAll_rows.mp member
    obtain ⟨tp, offset, value, rfl⟩ := delivered msg inBatch
    obtain ⟨accepts, ofPartition, ofOffset⟩ := row_route_iff.mp routed
    rw [Row.storable, ofPartition, ofOffset]
    exact holds tp offset value row.event inBatch accepts

theorem mem_absorb_maxOffset {msg : Message} {route : Route} {tp : TopicPartition} {top : Nat}
    (member : (tp, top) ∈ (start.absorb msg route).maxOffset) : (tp, top) ∈ start.maxOffset ∨ msg.At tp top := by
  unfold Batch.absorb at member
  dsimp only at member
  split at member
  · rename_i topic partition offset hasTopic hasPartition hasOffset
    rcases mem_bump member with old | ⟨rfl, rfl⟩
    · exact Or.inl old
    · exact Or.inr ⟨hasTopic, hasPartition, hasOffset⟩
  · exact Or.inl member

theorem absorb_keeps {tp : TopicPartition} {top : Nat} (msg : Message) (route : Route)
    (member : (tp, top) ∈ start.maxOffset) :
    ∃ higher, top ≤ higher ∧ (tp, higher) ∈ (start.absorb msg route).maxOffset := by
  unfold Batch.absorb
  dsimp only
  split
  · exact bump_keeps member
  · exact ⟨top, le_rfl, member⟩

/-- Every committed position is one past a message of the batch. -/
theorem mem_absorbAll_maxOffset {tp : TopicPartition} {top : Nat}
    (member : (tp, top) ∈ (ingestor.absorbAll outside start batch).maxOffset) :
    (tp, top) ∈ start.maxOffset ∨ ∃ msg ∈ batch, msg.At tp top := by
  induction batch generalizing start with
  | nil => exact Or.inl member
  | cons msg rest ih =>
    rw [absorbAll_cons] at member
    rcases ih member with earlier | ⟨found, inRest, place⟩
    · exact (mem_absorb_maxOffset earlier).imp_right fun place => ⟨msg, List.mem_cons_self .., place⟩
    · exact Or.inr ⟨found, List.mem_cons_of_mem _ inRest, place⟩

theorem absorbAll_keeps {tp : TopicPartition} {top : Nat} (outside : Outside) (batch : List Message)
    (member : (tp, top) ∈ start.maxOffset) :
    ∃ higher, top ≤ higher ∧ (tp, higher) ∈ (ingestor.absorbAll outside start batch).maxOffset := by
  induction batch generalizing start top with
  | nil => exact ⟨top, le_rfl, member⟩
  | cons msg rest ih =>
    obtain ⟨middle, below, inMiddle⟩ := absorb_keeps msg (ingestor.route outside msg) member
    obtain ⟨higher, above, found⟩ := ih inMiddle
    exact ⟨higher, below.trans above, found⟩

/-- No message of the batch lies at or past the position committed for its partition. -/
theorem absorbAll_covers (outside : Outside) (start : Batch) {tp : TopicPartition} {offset : Nat} {msg : Message}
    (member : msg ∈ batch)
    (place : msg.At tp offset) :
    ∃ higher, offset ≤ higher ∧ (tp, higher) ∈ (ingestor.absorbAll outside start batch).maxOffset := by
  induction batch generalizing start with
  | nil => simp at member
  | cons head rest ih =>
    rcases List.mem_cons.mp member with rfl | later
    · have here : ∃ higher, offset ≤ higher ∧
          (tp, higher) ∈ (start.absorb msg (ingestor.route outside msg)).maxOffset := by
        obtain ⟨hasTopic, hasPartition, hasOffset⟩ := place
        rw [Batch.absorb, hasTopic, hasPartition, hasOffset]
        exact bump_covers offset tp _
      obtain ⟨middle, below, inMiddle⟩ := here
      obtain ⟨higher, above, found⟩ := absorbAll_keeps outside rest inMiddle
      exact ⟨higher, below.trans above, found⟩
    · exact ih _ later

end Ingestor

end Amel
