import Amel.Common.Schema
import Amel.Ingestor.Storable
import Amel.Python.Calendar
import Amel.Python.Repr
import Amel.Python.Sendable
import Amel.Simulator.Dataset
import Amel.Simulator.Malformed

namespace Amel

open Python (Bytes Double Fields Heap Ref Represented Scalar Slot Text characters characters_text isoLocal newDict
  ofNat_toNat_map text text_scalar zeroPad)
open Python.Heap (Stands)
open Python.Json (JsonFloat Limits Numeral Sendable SendableItems Value loads literalValue sendable_int sendable_literal
  sendable_str serialize setItem)

/-- What Pydantic documents of these types: a `str` is taken as it stands
and nothing else is one, an `int` and a `float` are taken as they stand, and
an RFC 3339 timestamp in UTC is read by its fields. -/
structure Coercions.Documented (coercions : Coercions) : Prop where
  str : ∀ value s, coercions.str value = some s ↔ value = .str s
  int : ∀ n, coercions.int (.int n) = some n
  float : ∀ x, coercions.float (.float x) = some x.toDouble
  datetime : ∀ t : Fields, coercions.datetime (.str ((t.iso ++ ['Z']).map Char.toNat)) = some ⟨t.wall, some 0⟩

def Coercions.pydantic (coercions : Coercions) : Pydantic where
  featureEvent := FeatureEvent.modelValidate coercions
  labelEvent := LabelEvent.modelValidate coercions

/-- The offset behind a timestamp. -/
def isoOffset : Option Int → List Char
  | none => []
  | some offset =>
    if offset = 0 then ['Z']
    else (if offset < 0 then '-' else '+') :: zeroPad 2 (offset.natAbs / 3600000000) ++ ':' ::
      zeroPad 2 (offset.natAbs / 60000000 % 60)

/-- A `datetime` in the mode "json" of `model_dump`. -/
def Datetime.iso (stamp : Datetime) : Text := (isoLocal stamp.wall ++ isoOffset stamp.utcoffset).map Char.toNat

/-- How `json.dumps` writes a `float`. -/
def printFloat (x : Float64) : JsonFloat :=
  if Double.isFinite x then .literal (text (Double.repr x))
  else if Double.isNaN x then .nan
  else if Double.negative x then .negInfinity else .infinity

/-- `event.model_dump(mode="json")`. -/
def FeatureEvent.modelDump (event : FeatureEvent) : Payload :=
  [(text "event_id", .str event.eventId),
    (text "entity_id", .str event.entityId),
    (text "event_timestamp", .str event.eventTimestamp.iso),
    (text "schema_version", .str event.schemaVersion),
    (text "source", .str event.source),
    (text "features", .dict (event.features.map fun (name, x) => (text name, .float (printFloat x)))),
    (text "trace_id", .str event.traceId)]

def LabelEvent.modelDump (event : LabelEvent) : Payload :=
  [(text "event_id", .str event.eventId),
    (text "entity_id", .str event.entityId),
    (text "target", .int event.target),
    (text "label_timestamp", .str event.labelTimestamp.iso),
    (text "schema_version", .str event.schemaVersion)]

/-- The dicts that `model_dump` makes. -/
def FeatureEvent.toDict (event : FeatureEvent) : StateM Heap Ref := do
  let features ← newDict (event.features.map fun (name, x) => (text name, .value (.float (printFloat x)) rfl))
  newDict
    [(text "event_id", .value (.str event.eventId) rfl),
      (text "entity_id", .value (.str event.entityId) rfl),
      (text "event_timestamp", .value (.str event.eventTimestamp.iso) rfl),
      (text "schema_version", .value (.str event.schemaVersion) rfl),
      (text "source", .value (.str event.source) rfl),
      (text "features", .dict features),
      (text "trace_id", .value (.str event.traceId) rfl)]

def LabelEvent.toDict (event : LabelEvent) : StateM Heap Ref :=
  newDict
    [(text "event_id", .value (.str event.eventId) rfl),
      (text "entity_id", .value (.str event.entityId) rfl),
      (text "target", .value (.int event.target) rfl),
      (text "label_timestamp", .value (.str event.labelTimestamp.iso) rfl),
      (text "schema_version", .value (.str event.schemaVersion) rfl)]

/-- `f"higgs-{index:09d}"`, where the sign counts for the width. -/
def entityIdOf (index : Int) : String :=
  "higgs-" ++ String.ofList (if index < 0 then '-' :: zeroPad 8 index.natAbs else zeroPad 9 index.natAbs)

/-- The event of `_publish_feature`, from its settings, its arguments, the
clock and `uuid4().hex`. -/
def featureEventOf (serviceName entityId : String) (features : Features) (now : Int) (traceId : String) : FeatureEvent where
  eventId := text ("feat-" ++ entityId)
  entityId := text entityId
  eventTimestamp := ⟨now, some 0⟩
  source := text serviceName
  features := features
  traceId := text traceId

/-- The event of `_schedule_label`. -/
def labelEventOf (entityId : String) (target now : Int) : LabelEvent where
  eventId := text ("label-" ++ entityId)
  entityId := text entityId
  target := target
  labelTimestamp := ⟨now, some 0⟩

/-- A row of the 28 names with finite values and a target of 0 or 1. -/
structure DatasetRow.Ordinary (row : DatasetRow) : Prop where
  names : row.features.map Prod.fst = higgsFeatureNames
  finite : ∀ entry ∈ row.features, Double.isFinite entry.2 = true
  target : row.target = 0 ∨ row.target = 1

theorem entityIdOf_ofNat (index : Nat) : entityIdOf index = higgsEntityId index := by
  rw [entityIdOf, higgsEntityId, if_neg (by omega), Int.natAbs_natCast]

/-- The row with its floats as they print. -/
def DatasetRow.printed (row : DatasetRow) : HiggsRow :=
  ⟨row.target, row.features.map fun (name, x) => (name, printFloat x)⟩

/-- The payloads of the records are those of the events, under the default
name of the service. -/
theorem modelDump_featureEventOf (index : Nat) (row : DatasetRow) (now : Int) (traceId : String) :
    (featureEventOf "source_simulator" (entityIdOf index) row.features now traceId).modelDump =
      featurePayload (higgsEntityId index) row.printed (Datetime.iso ⟨now, some 0⟩) (text traceId) := by
  rw [entityIdOf_ofNat, featurePayload, DatasetRow.printed, List.map_map]
  rfl

theorem modelDump_labelEventOf (index : Nat) (row : DatasetRow) (now : Int) :
    (labelEventOf (entityIdOf index) row.target now).modelDump =
      labelPayload (higgsEntityId index) row.printed (Datetime.iso ⟨now, some 0⟩) := by
  rw [entityIdOf_ofNat]
  rfl

section Validation

variable {coercions : Coercions}

/-- A model has no key that is no field. -/
theorem FeatureEvent.modelValidate_forbids {items : Payload} {event : FeatureEvent}
    (valid : modelValidate coercions (.dict items) = .ok event) : ∀ item ∈ items, item.1 ∈ fields.map text := by
  obtain ⟨_, _, _, forbids, _⟩ := Checked.seq_eq_ok_iff.mp valid
  exact forbidExtra_eq_ok_iff.mp forbids

theorem LabelEvent.modelValidate_forbids {items : Payload} {event : LabelEvent}
    (valid : modelValidate coercions (.dict items) = .ok event) : ∀ item ∈ items, item.1 ∈ fields.map text := by
  obtain ⟨_, _, _, forbids, _⟩ := Checked.seq_eq_ok_iff.mp valid
  exact forbidExtra_eq_ok_iff.mp forbids

end Validation

namespace Coercions.Documented

variable {coercions : Coercions} (documented : coercions.Documented)

include documented

theorem one_str (s : Text) : Checked.one (coercions.str (.str s)) = .ok s := by
  rw [(documented.str _ s).mpr rfl]
  rfl

/-- A timestamp in UTC is read back. -/
theorem one_datetime {wall : Int} (represented : Represented wall) :
    Checked.one (coercions.datetime (.str (Datetime.iso ⟨wall, some 0⟩))) = .ok ⟨wall, some 0⟩ := by
  obtain ⟨t, shown, same⟩ := Python.exists_fields represented
  have read := documented.datetime t
  rw [← shown, same] at read
  rw [Datetime.iso, isoOffset, if_pos rfl, read]
  rfl

/-- A finite float is read back. -/
theorem one_float {x : Float64} (finite : Double.isFinite x = true) :
    Checked.one (coercions.float (.float (printFloat x))) = .ok x := by
  obtain ⟨_, _, _, value⟩ := Double.literalValue_repr finite
  rw [documented.float, printFloat, if_pos finite, JsonFloat.toDouble, value]
  rfl

theorem checkItems_eq {features : Features} (finite : ∀ entry ∈ features, Double.isFinite entry.2 = true) :
    checkItems coercions (features.map fun (name, x) => (text name, .float (printFloat x))) =
      .ok (features.map fun (name, x) => (text name, x)) := by
  induction features with
  | nil => rfl
  | cons entry features ih =>
    obtain ⟨name, x⟩ := entry
    rw [List.map_cons, checkItems, documented.one_str, documented.one_float (finite _ List.mem_cons_self),
      ih fun entry member => finite entry (List.mem_cons_of_mem _ member)]
    rfl

theorem checkFeatures_eq {features : Features} (names : features.map Prod.fst = higgsFeatureNames)
    (finite : ∀ entry ∈ features, Double.isFinite entry.2 = true) :
    checkFeatures coercions (.dict (features.map fun (name, x) => (text name, .float (printFloat x)))) =
      .ok features := by
  rw [checkFeatures, documented.checkItems_eq finite]
  exact featuresMatchHiggsSchema_of_names names

/-- What is dumped of a feature event validates as that event. -/
theorem modelValidate_featureDump {event : FeatureEvent} {wall : Int} (utc : event.eventTimestamp = ⟨wall, some 0⟩)
    (represented : Represented wall) (names : event.features.map Prod.fst = higgsFeatureNames)
    (finite : ∀ entry ∈ event.features, Double.isFinite entry.2 = true) :
    FeatureEvent.modelValidate coercions (.dict event.modelDump) = .ok event := by
  let str (value : Value) := Checked.one (coercions.str value)
  let datetime (value : Value) := Checked.one (coercions.datetime value)
  have eventId : required event.modelDump str "event_id" = .ok event.eventId := documented.one_str _
  have entityId : required event.modelDump str "entity_id" = .ok event.entityId := documented.one_str _
  have stamp : required event.modelDump datetime "event_timestamp" = .ok event.eventTimestamp := by
    rw [utc, ← documented.one_datetime represented, ← utc]
    rfl
  have version : defaulted event.modelDump str "schema_version" (text featureSchemaVersion) = .ok event.schemaVersion :=
    documented.one_str _
  have source : defaulted event.modelDump str "source" (text "source_simulator") = .ok event.source :=
    documented.one_str _
  have features : required event.modelDump (checkFeatures coercions) "features" = .ok event.features :=
    documented.checkFeatures_eq names finite
  have traceId : required event.modelDump str "trace_id" = .ok event.traceId := documented.one_str _
  have forbids : forbidExtra event.modelDump FeatureEvent.fields = .ok () :=
    forbidExtra_eq_ok_iff.mpr fun item member => List.mem_map_of_mem (f := Prod.fst) member
  unfold FeatureEvent.modelValidate
  dsimp only
  rw [eventId, entityId, stamp, version, source, features, traceId, forbids]
  rfl

/-- What is dumped of a label event validates as that event. -/
theorem modelValidate_labelDump {event : LabelEvent} {wall : Int} (utc : event.labelTimestamp = ⟨wall, some 0⟩)
    (represented : Represented wall) (classes : event.target = 0 ∨ event.target = 1) :
    LabelEvent.modelValidate coercions (.dict event.modelDump) = .ok event := by
  let str (value : Value) := Checked.one (coercions.str value)
  let datetime (value : Value) := Checked.one (coercions.datetime value)
  have eventId : required event.modelDump str "event_id" = .ok event.eventId := documented.one_str _
  have entityId : required event.modelDump str "entity_id" = .ok event.entityId := documented.one_str _
  have target : required event.modelDump (checkTarget coercions) "target" = .ok event.target := by
    show checkTarget coercions (.int event.target) = _
    rw [checkTarget, documented.int]
    exact if_pos (by omega)
  have stamp : required event.modelDump datetime "label_timestamp" = .ok event.labelTimestamp := by
    rw [utc, ← documented.one_datetime represented, ← utc]
    rfl
  have version : defaulted event.modelDump str "schema_version" (text labelSchemaVersion) = .ok event.schemaVersion :=
    documented.one_str _
  have forbids : forbidExtra event.modelDump LabelEvent.fields = .ok () :=
    forbidExtra_eq_ok_iff.mpr fun item member => List.mem_map_of_mem (f := Prod.fst) member
  unfold LabelEvent.modelValidate
  dsimp only
  rw [eventId, entityId, target, stamp, version, forbids]
  rfl

/-- A `str` field is the string of its key. -/
theorem lookup_of_required {items : Payload} {name : String} {s : Text}
    (read : required items (fun value => Checked.one (coercions.str value)) name = .ok s) :
    items.lookup (text name) = some (.str s) := by
  obtain ⟨value, found, taken⟩ := required_eq_ok_iff.mp read
  rw [found, (documented.str value s).mp (Checked.one_eq_ok_iff.mp taken)]

/-- The classes declare what the records rely on. -/
theorem declared : coercions.pydantic.Declared where
  feature payload event valid := by
    refine ⟨fun key member => ?_, ?_⟩
    · obtain ⟨item, inPayload, rfl⟩ := List.mem_map.mp member
      exact FeatureEvent.modelValidate_forbids valid item inPayload
    · simp only [Coercions.pydantic, FeatureEvent.modelValidate, Checked.seq_eq_ok_iff] at valid
      obtain ⟨_, _, ⟨_, _, ⟨_, _, ⟨_, _, ⟨_, _, ⟨_, _, ⟨_, entityId, ⟨_, _, start, _, rfl⟩, read, rfl⟩, _, rfl⟩, _, rfl⟩,
        _, rfl⟩, _, rfl⟩, _, rfl⟩, _, rfl⟩ := valid
      cases start
      exact documented.lookup_of_required read
  label payload event valid := by
    refine ⟨fun key member => ?_, ?_⟩
    · obtain ⟨item, inPayload, rfl⟩ := List.mem_map.mp member
      exact LabelEvent.modelValidate_forbids valid item inPayload
    · simp only [Coercions.pydantic, LabelEvent.modelValidate, Checked.seq_eq_ok_iff] at valid
      obtain ⟨_, _, ⟨_, _, ⟨_, _, ⟨_, _, ⟨_, entityId, ⟨_, _, start, _, rfl⟩, read, rfl⟩, _, rfl⟩, _, rfl⟩, _, rfl⟩,
        _, rfl⟩ := valid
      cases start
      exact documented.lookup_of_required read

end Coercions.Documented

/-- No label event has a target outside its bounds. -/
theorem Coercions.boundsTarget (coercions : Coercions) : coercions.pydantic.BoundsTarget := by
  intro value event valid
  cases value with
  | dict items =>
    simp only [Coercions.pydantic, LabelEvent.modelValidate, Checked.seq_eq_ok_iff] at valid
    obtain ⟨_, _, ⟨_, _, ⟨_, _, ⟨_, target, ⟨_, _, ⟨_, _, start, _, rfl⟩, _, rfl⟩, read, rfl⟩, _, rfl⟩, _, rfl⟩,
      _, rfl⟩ := valid
    cases start
    obtain ⟨value, -, taken⟩ := required_eq_ok_iff.mp read
    show 0 ≤ target ∧ target ≤ 1
    rcases checkTarget_range taken with rfl | rfl
    · decide
    · decide
  | _ => cases valid

section Sending

theorem iso_scalar (stamp : Datetime) : Scalar stamp.iso := by
  have scalar := text_scalar (String.ofList (isoLocal stamp.wall ++ isoOffset stamp.utcoffset))
  rwa [text, String.toList_ofList] at scalar

/-- Items under the names of fields can be sent where their values can. -/
theorem sendable_of_names {depth : Nat} {items : Payload} {names : List String}
    (keys : items.map Prod.fst = names.map text) (distinct : (names.map text).Nodup)
    (each : ∀ item ∈ items, Sendable depth item.2) : SendableItems depth items := by
  refine ⟨fun item member => ?_, keys ▸ distinct, each⟩
  have key : item.1 ∈ names.map text := keys ▸ List.mem_map_of_mem (f := Prod.fst) member
  obtain ⟨name, -, same⟩ := List.mem_map.mp key
  exact same ▸ text_scalar name

theorem features_sendable {features : Features} (names : features.map Prod.fst = higgsFeatureNames)
    (finite : ∀ entry ∈ features, Double.isFinite entry.2 = true) :
    SendableItems 2 (features.map fun (name, x) => (text name, .float (printFloat x))) := by
  have keys : (features.map fun (name, x) => (text name, Value.float (printFloat x))).map Prod.fst =
      higgsFeatureNames.map text := by
    rw [← names, List.map_map, List.map_map]
    rfl
  refine sendable_of_names keys (by decide) fun item member => ?_
  obtain ⟨entry, inFeatures, rfl⟩ := List.mem_map.mp member
  obtain ⟨n, shown, isFloat, -⟩ := Double.literalValue_repr (finite entry inFeatures)
  dsimp only
  rw [printFloat, if_pos (finite entry inFeatures)]
  exact sendable_literal 2 n shown isFloat

theorem featureDump_sendable {event : FeatureEvent} (texts : ∀ value ∈ event.texts, Scalar value)
    (names : event.features.map Prod.fst = higgsFeatureNames)
    (finite : ∀ entry ∈ event.features, Double.isFinite entry.2 = true) : SendableItems 1 event.modelDump := by
  have keys : event.modelDump.map Prod.fst = FeatureEvent.fields.map text := rfl
  refine sendable_of_names keys (by decide) fun item member => ?_
  simp only [FeatureEvent.modelDump, List.mem_cons, List.not_mem_nil, or_false] at member
  simp only [FeatureEvent.texts, List.forall_mem_cons, List.not_mem_nil, false_implies, implies_true, and_true] at texts
  obtain ⟨eventId, entityId, schemaVersion, source, traceId⟩ := texts
  rcases member with rfl | rfl | rfl | rfl | rfl | rfl | rfl
  · exact sendable_str 1 eventId
  · exact sendable_str 1 entityId
  · exact sendable_str 1 (iso_scalar _)
  · exact sendable_str 1 schemaVersion
  · exact sendable_str 1 source
  · exact (features_sendable names finite).dict le_rfl
  · exact sendable_str 1 traceId

theorem labelDump_sendable {event : LabelEvent} (texts : ∀ value ∈ event.texts, Scalar value)
    (classes : event.target = 0 ∨ event.target = 1) : SendableItems 1 event.modelDump := by
  have keys : event.modelDump.map Prod.fst = LabelEvent.fields.map text := rfl
  refine sendable_of_names keys (by decide) fun item member => ?_
  simp only [LabelEvent.modelDump, List.mem_cons, List.not_mem_nil, or_false] at member
  simp only [LabelEvent.texts, List.forall_mem_cons, List.not_mem_nil, false_implies, implies_true, and_true] at texts
  obtain ⟨eventId, entityId, schemaVersion⟩ := texts
  rcases member with rfl | rfl | rfl | rfl | rfl
  · exact sendable_str 1 eventId
  · exact sendable_str 1 entityId
  · refine sendable_int 1 ?_
    rcases classes with zero | one
    · rw [zero]
      decide
    · rw [one]
      decide
  · exact sendable_str 1 (iso_scalar _)
  · exact sendable_str 1 schemaVersion

/-- The text that `json.dumps` gives `1.0`. -/
theorem one_sendable (depth : Nat) : Sendable depth (.float (.literal (text "1.0"))) := by
  refine sendable_literal depth ⟨false, [0x31], [0x30], [], by decide, Or.inr ⟨_, _, rfl, by decide⟩, by decide,
    Or.inl rfl⟩ rfl (Or.inl (List.cons_ne_nil _ _))

variable {payload : Payload}

theorem changeFeatures_sendable (sendable : SendableItems 1 payload) {change : Payload → Payload}
    (keeps : ∀ features, SendableItems 2 features → SendableItems 2 (change features)) :
    SendableItems 1 (changeFeatures change payload) := by
  unfold changeFeatures
  split
  · rename_i features found
    have inner : Sendable 1 (.dict features) := sendable.each _ (List.mem_of_lookup_eq_some found)
    exact sendable.setItem (text_scalar _) ((keeps features inner.items).dict le_rfl)
  · exact sendable

theorem corruptFeaturePayload_sendable (sendable : SendableItems 1 payload) (strategy : FeatureStrategy) :
    SendableItems 1 (corruptFeaturePayload strategy payload) := by
  refine SendableItems.setItem ?_ (text_scalar _) (sendable_str 1 (text_scalar _))
  cases strategy with
  | dropField choice => exact sendable.filter _
  | wrongType => exact sendable.setItem (text_scalar _) (sendable_str 1 (text_scalar _))
  | extraField =>
    exact changeFeatures_sendable sendable fun features inner => inner.setItem (text_scalar _) (one_sendable 2)
  | truncatedFeatures => exact changeFeatures_sendable sendable fun features inner => inner.filter _

theorem corruptLabelPayload_sendable (sendable : SendableItems 1 payload) (strategy : LabelStrategy) :
    SendableItems 1 (corruptLabelPayload strategy payload) := by
  refine SendableItems.setItem ?_ (text_scalar _) (sendable_str 1 (text_scalar _))
  cases strategy with
  | dropField choice => exact sendable.filter _
  | targetOutOfRange choice =>
    refine sendable.setItem (text_scalar _) (sendable_int 1 ?_)
    revert choice
    decide
  | wrongType => exact sendable.setItem (text_scalar _) (sendable_str 1 (text_scalar _))

end Sending

/-- `json.dumps(payload).encode("utf-8")` of a dict object. -/
def messageOf (heap : Heap) (payload : Ref) : Option Bytes := heap.load 2 (.dict payload) >>= serialize

/-- What the two sides make of an event whose payload is an object of the
heap: its message is accepted as the event on the topic, the message of every
corrupted payload is rejected there, and corrupting leaves the objects that
there are as they are. -/
structure Agrees {Strategy : Type} (ingestor : Ingestor) (topic : String) (event : Event)
    (corrupt : Strategy → Ref → StateM Heap Ref) (heap : Heap) (payload : Ref) : Prop where
  accepted : ∃ bytes, messageOf heap payload = some bytes ∧ ingestor.Accepts topic (some bytes) event
  rejected : ∀ strategy, ∃ bytes reason,
    messageOf (corrupt strategy payload heap).2 (corrupt strategy payload heap).1 = some bytes ∧
      ingestor.Rejects topic (some bytes) reason
  untouched : ∀ strategy ref, ref < heap.length → (corrupt strategy payload heap).2[ref]? = heap[ref]?

section Agreement

variable {ingestor : Ingestor} {topic : String} {event : Event} {payload : Payload}

theorem accepts_of_loads {bytes : Bytes} {data : Value} (loaded : loads ingestor.limits bytes = .ok data)
    (valid : ingestor.modelValidate topic data = .ok event) : ingestor.Accepts topic (some bytes) event := by
  rw [Ingestor.Accepts, Ingestor.validate, loaded]
  dsimp only
  rw [valid]
  rfl

theorem rejects_of_loads {bytes : Bytes} {data : Value} (loaded : loads ingestor.limits bytes = .ok data)
    (invalid : ∀ event, ingestor.modelValidate topic data ≠ .ok event) :
    ∃ reason, ingestor.Rejects topic (some bytes) reason := by
  cases verdict : ingestor.modelValidate topic data with
  | ok event => exact absurd verdict (invalid event)
  | error count =>
    refine ⟨schemaReason count, ?_⟩
    rw [Ingestor.Rejects, Ingestor.validate, loaded]
    dsimp only
    rw [verdict]
    rfl

/-- What makes the two sides agree on an event: its payload validates as the
event, what corrupting makes of it does not, and all of them can be sent. -/
theorem agrees_of {Strategy : Type} {corrupt : Strategy → Ref → StateM Heap Ref} {corrupted : Strategy → Payload}
    (roomy : ingestor.limits.Roomy) {heap : Heap} {ref : Ref}
    (object : heap.load 2 (.dict ref) = some (.dict payload)) (sendable : SendableItems 1 payload)
    (valid : ingestor.modelValidate topic (.dict payload) = .ok event)
    (corrupts : ∀ items, heap[ref]? = some items → Stands heap 1 items payload → ∀ strategy,
      Corrupts (corrupt strategy ref) heap (corrupted strategy))
    (corruptedSendable : ∀ strategy, SendableItems 1 (corrupted strategy))
    (invalid : ∀ strategy event, ingestor.modelValidate topic (.dict (corrupted strategy)) ≠ .ok event) :
    Agrees ingestor topic event corrupt heap ref := by
  obtain ⟨items, found, stands⟩ := Python.Heap.load_dict_iff.mp object
  refine ⟨?_, fun strategy => ?_, fun strategy old inside => ?_⟩
  · obtain ⟨bytes, sent, loaded⟩ := (sendable.dict (by decide)).loads_serialize roomy
    exact ⟨bytes, by rw [messageOf, object]; exact sent, accepts_of_loads loaded valid⟩
  · obtain ⟨more, run, made⟩ := corrupts items found stands strategy
    obtain ⟨bytes, sent, loaded⟩ := ((corruptedSendable strategy).dict (by decide)).loads_serialize roomy
    obtain ⟨reason, rejects⟩ := rejects_of_loads loaded (invalid strategy)
    exact ⟨bytes, reason, by rw [run, messageOf, made]; exact sent, rejects⟩
  · obtain ⟨more, run, -⟩ := corrupts items found stands strategy
    rw [run, List.getElem?_append_left inside]

end Agreement

variable {coercions : Coercions} {settings : IngestorSettings} {limits : Limits} {heap : Heap} {ref : Ref}

theorem modelValidate_features (data : Value) :
    Ingestor.modelValidate ⟨settings, coercions.pydantic, limits⟩ settings.featuresTopic data =
      (FeatureEvent.modelValidate coercions data).map Event.feature := if_pos rfl

theorem modelValidate_labels (distinct : settings.labelsTopic ≠ settings.featuresTopic) (data : Value) :
    Ingestor.modelValidate ⟨settings, coercions.pydantic, limits⟩ settings.labelsTopic data =
      (LabelEvent.modelValidate coercions data).map Event.label := if_neg distinct

/-- A corrupted payload names its strategy, and no event class knows that key. -/
theorem marked_invalid {α : Type} {validated : Checked α} {fields : List Text} (unknown : malformedStrategy ∉ fields)
    {strategy : String} {payload : Payload}
    (forbids : ∀ event, validated = .ok event →
      ∀ item ∈ setItem malformedStrategy (.str (text strategy)) payload, item.1 ∈ fields)
    (build : α → Event) (event : Event) : validated.map build ≠ .ok event := by
  cases validated with
  | error count =>
    intro impossible
    cases impossible
  | ok read =>
    obtain ⟨item, member, marked⟩ := List.mem_map.mp (key_mem_setItem malformedStrategy (.str (text strategy)) payload)
    exact absurd (marked ▸ forbids read rfl item member) unknown

theorem feature_agrees (documented : coercions.Documented) (roomy : limits.Roomy) {event : FeatureEvent} {wall : Int}
    (texts : ∀ value ∈ event.texts, Scalar value) (utc : event.eventTimestamp = ⟨wall, some 0⟩)
    (represented : Represented wall) (names : event.features.map Prod.fst = higgsFeatureNames)
    (finite : ∀ entry ∈ event.features, Double.isFinite entry.2 = true)
    (object : heap.load 2 (.dict ref) = some (.dict event.modelDump)) :
    Agrees ⟨settings, coercions.pydantic, limits⟩ settings.featuresTopic (.feature event) corruptFeatureDict
      heap ref := by
  have sendable := featureDump_sendable texts names finite
  refine agrees_of roomy object sendable ?_ (fun _ found stands => corruptFeatureDict_corrupts found stands)
    (fun strategy => corruptFeaturePayload_sendable sendable strategy) fun strategy read => ?_
  · rw [modelValidate_features, documented.modelValidate_featureDump utc represented names finite]
    rfl
  · rw [modelValidate_features]
    exact marked_invalid (by decide) (fun _ => FeatureEvent.modelValidate_forbids) Event.feature read

theorem label_agrees (documented : coercions.Documented) (roomy : limits.Roomy)
    (distinct : settings.labelsTopic ≠ settings.featuresTopic) {event : LabelEvent} {wall : Int}
    (texts : ∀ value ∈ event.texts, Scalar value) (utc : event.labelTimestamp = ⟨wall, some 0⟩)
    (represented : Represented wall) (classes : event.target = 0 ∨ event.target = 1)
    (object : heap.load 2 (.dict ref) = some (.dict event.modelDump)) :
    Agrees ⟨settings, coercions.pydantic, limits⟩ settings.labelsTopic (.label event) corruptLabelDict heap ref := by
  have sendable := labelDump_sendable texts classes
  refine agrees_of roomy object sendable ?_ (fun _ found stands => corruptLabelDict_corrupts found stands)
    (fun strategy => corruptLabelPayload_sendable sendable strategy) fun strategy read => ?_
  · rw [modelValidate_labels distinct, documented.modelValidate_labelDump utc represented classes]
    rfl
  · rw [modelValidate_labels distinct]
    exact marked_invalid (by decide) (fun _ => LabelEvent.modelValidate_forbids) Event.label read

theorem featureEventOf_texts (serviceName entityId traceId : String) (features : Features) (now : Int) :
    ∀ value ∈ (featureEventOf serviceName entityId features now traceId).texts, Scalar value := by
  simp only [FeatureEvent.texts, featureEventOf, List.forall_mem_cons, List.not_mem_nil, false_implies, implies_true,
    and_true]
  exact ⟨text_scalar _, text_scalar _, text_scalar _, text_scalar _, text_scalar _⟩

theorem labelEventOf_texts (entityId : String) (target now : Int) :
    ∀ value ∈ (labelEventOf entityId target now).texts, Scalar value := by
  simp only [LabelEvent.texts, labelEventOf, List.forall_mem_cons, List.not_mem_nil, false_implies, implies_true,
    and_true]
  exact ⟨text_scalar _, text_scalar _, text_scalar _⟩

theorem stands_features (heap : Heap) (features : Features) :
    Stands heap 0 (features.map fun (name, x) => (text name, .value (.float (printFloat x)) rfl))
      (features.map fun (name, x) => (text name, .float (printFloat x))) := by
  induction features with
  | nil => exact List.Forall₂.nil
  | cons entry features ih => exact List.Forall₂.cons ⟨rfl, rfl⟩ ih

/-- The dicts that are made stand for what is dumped. -/
theorem FeatureEvent.load_toDict (event : FeatureEvent) (heap : Heap) :
    (event.toDict heap).2.load 2 (.dict (event.toDict heap).1) = some (.dict event.modelDump) := by
  let features : List (Text × Slot) :=
    event.features.map fun (name, x) => (text name, .value (.float (printFloat x)) rfl)
  have object (items : List (Text × Slot)) : Heap.load ((heap ++ [features]) ++ [items]) 1 (.dict heap.length) =
      some (.dict (event.features.map fun (name, x) => (text name, .float (printFloat x)))) :=
    Python.Heap.load_dict_iff.mpr ⟨features, by simp, stands_features _ event.features⟩
  exact Python.Heap.load_fresh
    (.cons ⟨rfl, rfl⟩ (.cons ⟨rfl, rfl⟩ (.cons ⟨rfl, rfl⟩ (.cons ⟨rfl, rfl⟩ (.cons ⟨rfl, rfl⟩
      (.cons ⟨rfl, object _⟩ (.cons ⟨rfl, rfl⟩ .nil)))))))

theorem LabelEvent.load_toDict (event : LabelEvent) (heap : Heap) :
    (event.toDict heap).2.load 2 (.dict (event.toDict heap).1) = some (.dict event.modelDump) :=
  Python.Heap.load_fresh
    (.cons ⟨rfl, rfl⟩ (.cons ⟨rfl, rfl⟩ (.cons ⟨rfl, rfl⟩ (.cons ⟨rfl, rfl⟩ (.cons ⟨rfl, rfl⟩ .nil)))))

/-- Coercions of strings, numbers and timestamps in UTC, and of nothing else. -/
def sampleCoercions : Coercions where
  str
    | .str s => some s
    | _ => none
  int
    | .int n => some n
    | _ => none
  float value := value.toFloat fun _ => none
  datetime
    | .str codes =>
      if codes.getLast? = some 0x5A then some ⟨Python.parseLocal (codes.map Char.ofNat), some 0⟩ else none
    | _ => none

theorem sampleCoercions_documented : sampleCoercions.Documented where
  str value s := by cases value <;> simp [sampleCoercions]
  int _ := rfl
  float _ := rfl
  datetime t := by
    simp only [sampleCoercions]
    rw [if_pos (by simp), ofNat_toNat_map, Python.parseLocal_iso t ['Z'] (by decide)]

/-- A row of 28 times 0.66. -/
def sampleRow : DatasetRow := ⟨1, higgsFeatureNames.map fun name => (name, 0x3FE51EB851EB851F)⟩

theorem sampleRow_ordinary : sampleRow.Ordinary where
  names := by decide
  finite := by decide +kernel
  target := Or.inr rfl

def sampleFeature : FeatureEvent :=
  featureEventOf "source_simulator" (entityIdOf 1) sampleRow.features 1789776000250000 "8f14e45fceea467a9b36d2c5b5e3b1a7"

def sampleLabel : LabelEvent := labelEventOf (entityIdOf 1) sampleRow.target 1789776060000000

/-- The message of such a row is accepted on the feature topic. -/
theorem sample_accepted (settings : IngestorSettings) : ∃ raw event,
    Ingestor.Accepts ⟨settings, sampleCoercions.pydantic, ⟨1000, 4300⟩⟩ settings.featuresTopic raw (.feature event) := by
  have agrees : Agrees ⟨settings, sampleCoercions.pydantic, ⟨1000, 4300⟩⟩ settings.featuresTopic
      (.feature sampleFeature) corruptFeatureDict (sampleFeature.toDict []).2 (sampleFeature.toDict []).1 :=
    feature_agrees sampleCoercions_documented ⟨by decide, Or.inr (by decide)⟩ (featureEventOf_texts _ _ _ _ _) rfl
      ⟨by decide, by decide⟩
      sampleRow_ordinary.names sampleRow_ordinary.finite (FeatureEvent.load_toDict _ [])
  obtain ⟨bytes, -, accepts⟩ := agrees.accepted
  exact ⟨some bytes, _, accepts⟩

/-- For every row the simulator and the ingestor agree on both of its events. -/
theorem formats_agree (documented : coercions.Documented) (roomy : limits.Roomy)
    (distinct : settings.labelsTopic ≠ settings.featuresTopic) (row : DatasetRow) (ordinary : row.Ordinary)
    (index : Int) (serviceName traceId : String) (eventNow labelNow : Int) (eventRepresented : Represented eventNow)
    (labelRepresented : Represented labelNow) (heap : Heap) :
    let feature := featureEventOf serviceName (entityIdOf index) row.features eventNow traceId
    let label := labelEventOf (entityIdOf index) row.target labelNow
    Agrees ⟨settings, coercions.pydantic, limits⟩ settings.featuresTopic (.feature feature) corruptFeatureDict
        (feature.toDict heap).2 (feature.toDict heap).1 ∧
      Agrees ⟨settings, coercions.pydantic, limits⟩ settings.labelsTopic (.label label) corruptLabelDict
        (label.toDict heap).2 (label.toDict heap).1 :=
  ⟨feature_agrees documented roomy (featureEventOf_texts _ _ _ _ _) rfl eventRepresented ordinary.names ordinary.finite
      (FeatureEvent.load_toDict _ heap),
    label_agrees documented roomy distinct (labelEventOf_texts _ _ _) rfl labelRepresented ordinary.target
      (LabelEvent.load_toDict _ heap)⟩

theorem sample_formats_agree :
    Agrees ⟨{}, sampleCoercions.pydantic, ⟨1000, 4300⟩⟩ "higgs.features.v1" (.feature sampleFeature) corruptFeatureDict
        (sampleFeature.toDict []).2 (sampleFeature.toDict []).1 ∧
      Agrees ⟨{}, sampleCoercions.pydantic, ⟨1000, 4300⟩⟩ "higgs.labels.v1" (.label sampleLabel) corruptLabelDict
        (sampleLabel.toDict []).2 (sampleLabel.toDict []).1 :=
  formats_agree sampleCoercions_documented ⟨by decide, Or.inr (by decide)⟩ (by decide) sampleRow sampleRow_ordinary 1
    "source_simulator" _ _ _ ⟨by decide, by decide⟩ ⟨by decide, by decide⟩ []

end Amel
