import Amel.Common.Events
import Amel.Python.Literal

namespace Amel

open Python (Text characters text characters_text)
open Python.Json (Value)

/-- How Pydantic takes a decoded value as a value of a field's type, or
`none` where it reports an error. -/
structure Coercions where
  str : Value → Option Text
  int : Value → Option Int
  float : Value → Option Float64
  datetime : Value → Option Datetime

/-- A part of a model, or the number of errors in it. -/
abbrev Checked (α : Type) := Except Nat α

namespace Checked

variable {α β : Type}

/-- Both parts are checked, and the errors of both counted. -/
def seq (build : Checked (α → β)) (part : Checked α) : Checked β :=
  match build, part with
  | .ok f, .ok a => .ok (f a)
  | .ok _, .error n => .error n
  | .error m, .ok _ => .error m
  | .error m, .error n => .error (m + n)

def one (read : Option α) : Checked α :=
  match read with
  | some a => .ok a
  | none => .error 1

theorem seq_eq_ok_iff {build : Checked (α → β)} {part : Checked α} {b : β} :
    seq build part = .ok b ↔ ∃ f a, build = .ok f ∧ part = .ok a ∧ f a = b := by
  cases build with
  | error m => cases part <;> simp [seq]
  | ok f => cases part <;> simp [seq]

theorem one_eq_ok_iff {read : Option α} {a : α} : one read = .ok a ↔ read = some a := by
  cases read <;> simp [one]

end Checked

open Checked (seq one)

/-- A field without a default. -/
def required {α : Type} (items : List (Text × Value)) (read : Value → Checked α) (name : String) : Checked α :=
  match items.lookup (text name) with
  | some value => read value
  | none => .error 1

/-- A field with a default, which is not checked. -/
def defaulted {α : Type} (items : List (Text × Value)) (read : Value → Checked α) (name : String) (default : α) :
    Checked α :=
  match items.lookup (text name) with
  | some value => read value
  | none => .ok default

/-- `extra="forbid"`: each key that names no field is an error. -/
def forbidExtra (items : List (Text × Value)) (fields : List String) : Checked Unit :=
  let extra := items.filter fun item => !(fields.map text).contains item.1
  if extra.isEmpty then .ok () else .error extra.length

/-- The items of a `dict[str, float]`. -/
def checkItems (coercions : Coercions) : List (Text × Value) → Checked (List (Text × Float64))
  | [] => .ok []
  | (key, value) :: rest =>
    seq (seq (seq (.ok fun key value rest => (key, value) :: rest) (one (coercions.str (.str key))))
      (one (coercions.float value))) (checkItems coercions rest)

/-- `features_match_higgs_schema`: exactly the 28 names. -/
def featuresMatchHiggsSchema (value : List (Text × Float64)) : Checked Features :=
  let got := value.map Prod.fst
  let expected := higgsFeatureNames.map text
  if got.all expected.contains && expected.all got.contains then
    .ok (value.map fun (name, x) => (characters name, x))
  else .error 1

theorem featuresMatchHiggsSchema_of_names {features : Features} (names : features.map Prod.fst = higgsFeatureNames) :
    featuresMatchHiggsSchema (features.map fun (name, x) => (text name, x)) = .ok features := by
  have got : (features.map fun (name, x) => (text name, x)).map Prod.fst = higgsFeatureNames.map text := by
    rw [← names, List.map_map, List.map_map]
    rfl
  have back : (features.map fun (name, x) => (text name, x)).map (fun (name, x) => (characters name, x)) = features := by
    rw [List.map_map]
    refine (List.map_congr_left fun entry _ => ?_).trans (List.map_id' features)
    show (characters (text entry.1), entry.2) = entry
    rw [characters_text]
  have all : (higgsFeatureNames.map text).all (higgsFeatureNames.map text).contains = true :=
    List.all_eq_true.mpr fun _ member => List.contains_iff_mem.mpr member
  dsimp only [featuresMatchHiggsSchema]
  rw [got, all]
  exact congrArg Except.ok back

/-- The field `features` with its validator, which runs on a dict of floats. -/
def checkFeatures (coercions : Coercions) : Value → Checked Features
  | .dict items => checkItems coercions items >>= featuresMatchHiggsSchema
  | _ => .error 1

/-- `Annotated[int, Field(ge=0, le=1)]`. -/
def checkTarget (coercions : Coercions) (value : Value) : Checked Int :=
  one (coercions.int value) >>= fun target => if 0 ≤ target ∧ target ≤ 1 then .ok target else .error 1

namespace FeatureEvent

def fields : List String :=
  ["event_id", "entity_id", "event_timestamp", "schema_version", "source", "features", "trace_id"]

/-- `FeatureEvent.model_validate`: the event, or how many errors there are. -/
def modelValidate (coercions : Coercions) : Value → Checked FeatureEvent
  | .dict items =>
    let str (value : Value) := one (coercions.str value)
    let event := .ok fun eventId entityId eventTimestamp schemaVersion source features traceId _ =>
      { eventId, entityId, eventTimestamp, schemaVersion, source, features, traceId }
    let event := seq event (required items str "event_id")
    let event := seq event (required items str "entity_id")
    let event := seq event (required items (fun value => one (coercions.datetime value)) "event_timestamp")
    let event := seq event (defaulted items str "schema_version" (text featureSchemaVersion))
    let event := seq event (defaulted items str "source" (text "source_simulator"))
    let event := seq event (required items (checkFeatures coercions) "features")
    let event := seq event (required items str "trace_id")
    seq event (forbidExtra items fields)
  | _ => .error 1

end FeatureEvent

namespace LabelEvent

def fields : List String := ["event_id", "entity_id", "target", "label_timestamp", "schema_version"]

/-- `LabelEvent.model_validate`. -/
def modelValidate (coercions : Coercions) : Value → Checked LabelEvent
  | .dict items =>
    let str (value : Value) := one (coercions.str value)
    let event := .ok fun eventId entityId target labelTimestamp schemaVersion _ =>
      { eventId, entityId, target, labelTimestamp, schemaVersion }
    let event := seq event (required items str "event_id")
    let event := seq event (required items str "entity_id")
    let event := seq event (required items (checkTarget coercions) "target")
    let event := seq event (required items (fun value => one (coercions.datetime value)) "label_timestamp")
    let event := seq event (defaulted items str "schema_version" (text labelSchemaVersion))
    seq event (forbidExtra items fields)
  | _ => .error 1

end LabelEvent

theorem forbidExtra_eq_ok_iff {items : List (Text × Value)} {fields : List String} :
    forbidExtra items fields = .ok () ↔ ∀ item ∈ items, item.1 ∈ fields.map text := by
  unfold forbidExtra
  dsimp only
  split
  · rename_i none
    rw [List.isEmpty_iff, List.filter_eq_nil_iff] at none
    exact iff_of_true rfl fun item member => by simpa using none item member
  · rename_i some
    rw [List.isEmpty_iff, List.filter_eq_nil_iff] at some
    refine iff_of_false (fun impossible => by cases impossible) fun all => some fun item member => ?_
    simpa using all item member

theorem required_eq_ok_iff {α : Type} {items : List (Text × Value)} {read : Value → Checked α} {name : String} {a : α} :
    required items read name = .ok a ↔ ∃ value, items.lookup (text name) = some value ∧ read value = .ok a := by
  unfold required
  cases items.lookup (text name) <;> simp

/-- What an accepted target is. -/
theorem checkTarget_range {coercions : Coercions} {value : Value} {target : Int}
    (accepted : checkTarget coercions value = .ok target) : target = 0 ∨ target = 1 := by
  unfold checkTarget at accepted
  cases read : one (coercions.int value) with
  | error n =>
    rw [read] at accepted
    cases accepted
  | ok n =>
    rw [read] at accepted
    change (if 0 ≤ n ∧ n ≤ 1 then Except.ok n else Except.error 1) = _ at accepted
    split at accepted
    · cases accepted
      omega
    · cases accepted

end Amel
