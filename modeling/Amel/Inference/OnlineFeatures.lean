import Amel.Inference.OneModel
import Amel.Library.Assoc
import Amel.Python.Literal

namespace Amel

open Python (Double Text text)
open Python.Json (Value setItem)

/-- `container[key]` of a `str` key. -/
def item (container : Value) (key : String) : Option Value :=
  match container with
  | .dict items => items.lookup (text key)
  | _ => none

/-- `list(value)`. -/
def iterate : Value → Option (List Value)
  | .list items => some items
  | .str s => some (s.map fun c => .str [c])
  | .dict items => some (items.map fun (key, _) => .str key)
  | _ => none

/-- `container[0]`. -/
def first : Value → Option Value
  | .list (value :: _) => some value
  | .str (c :: _) => some (.str [c])
  | _ => none

/-- The loop of `{name: col["values"][0] for name, col in zip(names, results,
strict=True)}`, as far as the keys are `str`; a list or a dict is no key. -/
def columnValues : List Value → List Value → List (Text × Value) → Option (List (Text × Value))
  | [], [], values => some values
  | name :: names, col :: results, values => do
    let value ← first (← item col "values")
    match name with
    | .str key => columnValues names results (setItem key value values)
    | .list _ | .dict _ => none
    | _ => columnValues names results values
  | _, _, _ => none

def isNull : Value → Bool
  | .null => true
  | _ => false

section

/- `float` of a `str`, or `none` where it raises ValueError. -/
variable (ofText : Text → Option Double)

/-- An item of `{k: float(v) for k, v in features.items()}`. -/
def floatItem (item : String × Value) : Option (String × Double) := (item.2.toFloat ofText).map (item.1, ·)

/-- `FeastOnlineClient.get_features` behind the request; `none` where it
raises. -/
def featuresOf (body : Value) : Option (Option Features) := do
  let names ← iterate (← item (← item body "metadata") "feature_names")
  let results ← iterate (← item body "results")
  let values ← columnValues names results []
  let features := higgsFeatureNames.map fun name => (name, (values.lookup (text name)).getD .null)
  if features.any fun feature => isNull feature.2 then return none
  return some (← features.mapM (floatItem ofText))

/-- `FeastOnlineClient.get_features`, by what the request and its JSON came
to. -/
def onlineFeatures (response : Except Unit Value) : Except Unit (Option Features) :=
  response.bind fun body => (featuresOf ofText body).elim (.error ()) .ok

/-- The value of a feature: null, or what `float` takes. -/
def Holds (value : Value) : Prop := isNull value = true ∨ ∃ x, value.toFloat ofText = some x

/-- The body of a response with these columns, of one value each. Only the
features have to be numbers; other columns hold anything. -/
structure Columns (body : Value) (columns : List (Text × Value)) : Prop where
  names : (item body "metadata").bind (item · "feature_names") = some (.list (columns.map fun column => .str column.1))
  results : ∃ results, item body "results" = some (.list results) ∧
    List.Forall₂ (fun col column => item col "values" = some (.list [column.2])) results columns
  distinct : (columns.map Prod.fst).Nodup
  features : ∀ name ∈ higgsFeatureNames, ∀ value, (text name, value) ∈ columns → Holds ofText value

end

/-- All 28 features are there and not null. -/
def AllPresent (columns : List (Text × Value)) : Prop :=
  ∀ name ∈ higgsFeatureNames, ∃ value, (text name, value) ∈ columns ∧ isNull value = false

/-- `RawPredictRequest.exactly_the_higgs_features`: whether it returns. -/
def exactlyTheHiggsFeatures (features : Features) : Bool :=
  features.all (fun (name, _) => higgsFeatureNames.contains name) &&
    higgsFeatureNames.all fun name => (features.map Prod.fst).contains name

/-- What a request says of the prediction. -/
def outcome : Except ServiceError PredictionResult → Except ServiceError (Int × Double)
  | .ok result => .ok (result.prediction, result.probability)
  | .error error => .error error

/-- What a model makes of the features. -/
def LoadedModel.predicts (loaded : LoadedModel) (features : Features) : Except ServiceError (Int × Double) :=
  match loaded.proba features with
  | some proba => .ok (labelOf proba, proba)
  | none => .error .raised

variable {ofText : Text → Option Double} {body : Value} {columns : List (Text × Value)} {features mapping : Features}

/-- Names and columns are joined by their place. -/
theorem columnValues_of_columns {results : List Value} (read : List (Text × Value))
    (each : List.Forall₂ (fun col column => item col "values" = some (.list [column.2])) results columns)
    (distinct : (columns.map Prod.fst).Nodup) (fresh : ∀ column ∈ columns, column.1 ∉ read.map Prod.fst) :
    columnValues (columns.map fun column => .str column.1) results read = some (read ++ columns) := by
  induction each generalizing read with
  | nil => simp [columnValues]
  | @cons col column results columns isValue _ ih =>
    rw [List.map_cons, List.nodup_cons] at distinct
    have joined := ih (read ++ [column]) distinct.2 (by
      intro later member
      rw [List.map_append, List.mem_append, not_or]
      refine ⟨fresh later (List.mem_cons_of_mem _ member), fun same => distinct.1 ?_⟩
      rw [← List.mem_singleton.mp same]
      exact List.mem_map_of_mem member)
    rw [List.map_cons, columnValues, isValue]
    show columnValues _ _ (setItem _ column.2 read) = _
    rw [Python.Json.setItem_fresh (fresh column List.mem_cons_self), joined, List.append_assoc, List.singleton_append]

/-- The features that `get_features` looks up, in the HIGGS order. -/
def looked (columns : List (Text × Value)) : List (String × Value) :=
  higgsFeatureNames.map fun name => (name, (columns.lookup (text name)).getD .null)

/-- One feature is missing or null. -/
theorem looked_incomplete (distinct : (columns.map Prod.fst).Nodup) (missing : ¬AllPresent columns) :
    (looked columns).any (fun feature => isNull feature.2) = true := by
  unfold AllPresent at missing
  push Not at missing
  obtain ⟨name, isHiggs, absent⟩ := missing
  refine List.any_eq_true.mpr ⟨_, List.mem_map_of_mem isHiggs, ?_⟩
  show isNull ((columns.lookup (text name)).getD .null) = true
  cases found : columns.lookup (text name) with
  | none => rfl
  | some value => simpa using absent value ((List.lookup_eq_some_iff_mem distinct).mp found)

/-- All features are there, and each is the number that its column holds. -/
theorem looked_complete (distinct : (columns.map Prod.fst).Nodup)
    (numbers : ∀ name ∈ higgsFeatureNames, ∀ value, (text name, value) ∈ columns → Holds ofText value)
    (present : AllPresent columns) :
    (looked columns).any (fun feature => isNull feature.2) = false ∧
      ∃ features, (looked columns).mapM (floatItem ofText) = some features ∧
        features.map Prod.fst = higgsFeatureNames ∧
          ∀ name x, (name, x) ∈ features → ∃ value, (text name, value) ∈ columns ∧ value.toFloat ofText = some x := by
  have each : ∀ name ∈ higgsFeatureNames, ∃ value x, (text name, value) ∈ columns ∧
      (columns.lookup (text name)).getD .null = value ∧ isNull value = false ∧ value.toFloat ofText = some x := by
    intro name isHiggs
    obtain ⟨value, member, notNull⟩ := present name isHiggs
    rcases numbers name isHiggs value member with null | ⟨x, reads⟩
    · cases notNull.symm.trans null
    · exact ⟨value, x, member, by rw [List.lookup_eq_some_of_mem distinct member]; rfl, notNull, reads⟩
  unfold looked
  generalize higgsFeatureNames = names at each
  induction names with
  | nil => exact ⟨rfl, [], rfl, rfl, by simp⟩
  | cons name names ih =>
    obtain ⟨noNulls, features, taken, same, fromCell⟩ := ih fun other member => each other (List.mem_cons_of_mem _ member)
    obtain ⟨value, x, member, found, notNull, reads⟩ := each name List.mem_cons_self
    refine ⟨?_, (name, x) :: features, ?_, ?_, ?_⟩
    · rw [List.map_cons, List.any_cons, noNulls, found, notNull]
      rfl
    · rw [List.map_cons, List.mapM_cons, taken, floatItem, found, reads]
      rfl
    · rw [List.map_cons, same]
    · intro other y isOne
      rcases List.mem_cons.mp isOne with same | later
      · cases same
        exact ⟨value, member, reads⟩
      · exact fromCell other y later

/-- The mapping of all 28 features where they are all there and not null, and
none otherwise. -/
theorem onlineFeatures_of_columns (answer : Columns ofText body columns) :
    (AllPresent columns → ∃ features, onlineFeatures ofText (.ok body) = .ok (some features) ∧
      features.map Prod.fst = higgsFeatureNames ∧
        ∀ name x, (name, x) ∈ features → ∃ value, (text name, value) ∈ columns ∧ value.toFloat ofText = some x) ∧
      (¬AllPresent columns → onlineFeatures ofText (.ok body) = .ok none) := by
  obtain ⟨results, isResults, each⟩ := answer.results
  obtain ⟨metadata, isMetadata, isNames⟩ := Option.bind_eq_some_iff.mp answer.names
  have joined := columnValues_of_columns [] each answer.distinct (by simp)
  have steps : featuresOf ofText body =
      if (looked columns).any (fun feature => isNull feature.2) then some none
      else ((looked columns).mapM (floatItem ofText)).map some := by
    simp only [featuresOf, isMetadata, isNames, isResults, iterate, joined, Option.bind_eq_bind, Option.bind_some,
      List.nil_append, Option.map_eq_bind]
    rfl
  constructor
  · intro present
    obtain ⟨noNulls, features, taken, names, fromCell⟩ := looked_complete answer.distinct answer.features present
    refine ⟨features, ?_, names, fromCell⟩
    rw [onlineFeatures, Except.bind, steps, noNulls, if_neg Bool.false_ne_true, taken]
    rfl
  · intro missing
    rw [onlineFeatures, Except.bind, steps, if_pos (looked_incomplete answer.distinct missing)]
    rfl

/-- The frame has the values in the HIGGS order, whatever the order of the
mapping. -/
theorem frame_of_perm (names : features.map Prod.fst = higgsFeatureNames) (reordered : features.Perm mapping) :
    frame mapping = some (features.map fun feature => Double.toSingle feature.2) := by
  have distinct : (features.map Prod.fst).Nodup := names ▸ by decide
  have same : frame mapping = frame features := by
    unfold frame
    congr 1
    funext name
    rw [reordered.lookup_eq distinct]
  rw [same, frame, ← names]
  exact List.mapM_lookup_keys distinct Double.toSingle

theorem exactlyTheHiggsFeatures_of_perm (names : features.map Prod.fst = higgsFeatureNames)
    (reordered : features.Perm mapping) : exactlyTheHiggsFeatures mapping = true := by
  have members : ∀ name, name ∈ mapping.map Prod.fst ↔ name ∈ higgsFeatureNames := fun name => by
    rw [← names]
    exact (reordered.map Prod.fst).mem_iff.symm
  refine Bool.and_eq_true_iff.mpr ⟨List.all_eq_true.mpr ?_, List.all_eq_true.mpr ?_⟩
  · intro entry member
    exact List.contains_iff_mem.mpr ((members _).mp (List.mem_map_of_mem member))
  · intro name isHiggs
    exact List.contains_iff_mem.mpr ((members name).mpr isHiggs)

section Runs

variable {service : PredictionService} {parts : PredictionParts} {loaded : LoadedModel} {entityId : Option String}
  {source traceId : String} {started : Double} {past : List (Program.Exchange ServiceReply)}
  {result : Except ServiceError PredictionResult}

/-- A call that reads neither the model nor the features. -/
def Downstream : ServiceCall → Prop
  | .readCurrent | .getFeatures _ => False
  | _ => True

theorem deliver_uses : (deliver service parts).Uses Downstream := by
  refine Program.Uses.bind ?_ fun persisted => Program.Uses.bind ?_ fun _ => trivial
  · unfold persist
    split
    · refine ⟨trivial, fun reply => ?_⟩
      match (reply : Except Unit Unit) with
      | .ok () | .error () => trivial
    · trivial
  · unfold announce
    split
    · refine ⟨trivial, fun now => ?_⟩
      show Program.Uses _ ((publishValid (parts.event now).validate).rescue _)
      cases (parts.event now).validate with
      | none => trivial
      | some valid =>
        refine ⟨trivial, fun reply => ?_⟩
        match (reply : Except Unit Unit) with
        | .ok () | .error () => trivial
    · trivial

theorem predictLoaded_uses (features : Features) :
    (predictLoaded service loaded features entityId source traceId started).Uses Downstream := by
  unfold predictLoaded
  split
  · trivial
  · exact ⟨trivial, fun stopped => ⟨trivial, fun predictionId => deliver_uses⟩⟩

/-- Neither the store nor the publisher makes a prediction fail. -/
theorem deliver_returns : (deliver service parts).Obeys (fun _ _ => True)
    (fun _ result => ∃ persisted, result = .ok (parts.result persisted)) past := by
  have persists : (persist service parts.row).Obeys (fun _ _ => True) (fun _ result => ∃ persisted, result = .ok persisted)
      past := by
    unfold persist
    split
    · refine ⟨trivial, fun reply => ?_⟩
      match (reply : Except Unit Unit) with
      | .ok () => exact ⟨true, rfl⟩
      | .error () => exact ⟨false, rfl⟩
    · exact ⟨false, rfl⟩
  have announces (now : List (Program.Exchange ServiceReply)) : (announce service parts.event).Obeys (fun _ _ => True)
      (fun _ result => result = .ok ()) now := by
    unfold announce
    split
    · refine ⟨trivial, fun instant => ?_⟩
      show Program.Obeys _ _ ((publishValid (parts.event instant).validate).rescue _) _
      cases (parts.event instant).validate with
      | none => exact rfl
      | some valid =>
        refine ⟨trivial, fun reply => ?_⟩
        match (reply : Except Unit Unit) with
        | .ok () | .error () => exact rfl
    · exact rfl
  refine persists.bind ?_ ?_
  · rintro now error ⟨_, impossible⟩
    cases impossible
  · intro now persisted _
    refine (announces now).bind ?_ fun later _ _ => ⟨persisted, rfl⟩
    intro later error impossible
    cases impossible

theorem modelsRead_of_downstream {later : List (Program.Exchange ServiceReply)}
    (downstream : ∀ exchange ∈ later, Downstream exchange.1) : modelsRead later = [] := by
  refine List.filterMap_eq_nil_iff.mpr fun exchange member => ?_
  have allowed := downstream exchange member
  obtain ⟨request, reply⟩ := exchange
  cases request with
  | readCurrent => exact allowed.elim
  | _ => rfl

/-- A prediction that has ended says what the model it read makes of the
features, and has read nothing else. -/
theorem predict_ends {features : Features}
    (ends : (predict service features entityId source traceId started).Ends past result)
    (read : some loaded ∈ modelsRead past) :
    outcome result = loaded.predicts features ∧ ∀ entityId reply, ⟨.getFeatures entityId, reply⟩ ∉ past := by
  obtain ⟨current, later, rfl, behind⟩ := Program.Ends.of_call ends
  clear ends
  match (current : Option LoadedModel), behind with
  | none, behind =>
    have rest := (show Program.Uses Downstream (.raise ServiceError.modelNotLoaded) from trivial).of_ends behind
    have unread : modelsRead (⟨.readCurrent, none⟩ :: later) = [none] := by
      show none :: modelsRead later = [none]
      rw [modelsRead_of_downstream rest]
    rw [unread] at read
    simp at read
  | some cached, behind =>
    have rest := (predictLoaded_uses features).of_ends behind
    have one : modelsRead (⟨.readCurrent, some cached⟩ :: later) = [some cached] := by
      show some cached :: modelsRead later = [some cached]
      rw [modelsRead_of_downstream rest]
    rw [one, List.mem_singleton] at read
    cases read
    refine ⟨?_, fun entityId reply member => ?_⟩
    · change (predictLoaded service loaded features entityId source traceId started).Ends later result at behind
      unfold predictLoaded at behind
      unfold LoadedModel.predicts
      cases found : loaded.proba features with
      | none =>
        rw [found] at behind
        rw [Program.Ends.of_raise behind]
        rfl
      | some proba =>
        rw [found] at behind
        obtain ⟨stopped, _, _, timed⟩ := Program.Ends.of_call behind
        obtain ⟨predictionId, _, _, delivered⟩ := Program.Ends.of_call timed
        obtain ⟨persisted, rfl⟩ := Program.Ends.obeys delivered deliver_returns
        rfl
    · rcases List.mem_cons.mp member with impossible | later
      · cases impossible
      · exact rest _ later

theorem predictRaw_ends {features : Features} (ends : (predictRaw service features entityId traceId).Ends past result)
    (read : some loaded ∈ modelsRead past) : outcome result = loaded.predicts features := by
  obtain ⟨started, later, rfl, behind⟩ := Program.Ends.of_call ends
  exact (predict_ends behind read).1

theorem predictEntity_ends {features : Features} {entityId : String}
    (ends : (predictEntity service entityId traceId).Ends past result) (read : some loaded ∈ modelsRead past)
    (fetched : ⟨.getFeatures entityId, (.ok (some features) : Except Unit (Option Features))⟩ ∈ past) :
    outcome result = loaded.predicts features := by
  obtain ⟨started, later, rfl, behind⟩ := Program.Ends.of_call ends
  have raises {error : ServiceError} {rest : List (Program.Exchange ServiceReply)}
      (raised : (.raise error : ServiceProgram PredictionResult).Ends rest result) : modelsRead rest = [] :=
    modelsRead_of_downstream ((show Program.Uses Downstream (.raise error) from trivial).of_ends raised)
  change (if service.features then _ else _ : ServiceProgram PredictionResult).Ends later result at behind
  change some loaded ∈ modelsRead later at read
  split at behind
  · obtain ⟨reply, last, rfl, onwards⟩ := Program.Ends.of_call behind
    change some loaded ∈ modelsRead last at read
    clear behind
    match (reply : Except Unit (Option Features)), onwards, fetched with
    | .error (), raised, _ =>
      rw [raises raised] at read
      cases read
    | .ok none, raised, _ =>
      rw [raises raised] at read
      cases read
    | .ok (some taken), predicted, fetched =>
      obtain ⟨same, alone⟩ := predict_ends predicted read
      have here : taken = features := by
        rcases List.mem_cons.mp fetched with impossible | fetched
        · cases impossible
        · rcases List.mem_cons.mp fetched with same | later
          · cases same
            rfl
          · exact absurd later (alone _ _)
      rw [← here, same]
  · rw [raises behind] at read
    cases read

end Runs

/-- What `get_features` makes of the columns of a response. -/
structure MapsColumns (ofText : Text → Option Double) (body : Value) (columns : List (Text × Value)) : Prop where
  complete : (∃ features, onlineFeatures ofText (.ok body) = .ok (some features)) ↔ AllPresent columns
  incomplete : ¬AllPresent columns → onlineFeatures ofText (.ok body) = .ok none
  names : ∀ features, onlineFeatures ofText (.ok body) = .ok (some features) →
    features.map Prod.fst = higgsFeatureNames
  values : ∀ features, onlineFeatures ofText (.ok body) = .ok (some features) →
    ∀ name x, (name, x) ∈ features → ∃ value, (text name, value) ∈ columns ∧ value.toFloat ofText = some x

/-- The mapping is one that a raw request may carry, the model gets from it
what it gets from the features of the entity, in the HIGGS order, and where
both requests have read one model they end with one prediction. -/
structure SamePrediction (features mapping : Features) : Prop where
  accepted : exactlyTheHiggsFeatures mapping = true
  entity : frame features = some (features.map fun feature => Double.toSingle feature.2)
  raw : frame mapping = frame features
  ends : ∀ (service : PredictionService) (loaded : LoadedModel) (entityId traceId traceId' : String)
    (named : Option String) past past' result result',
    (predictEntity service entityId traceId).Ends past result →
    (predictRaw service mapping named traceId').Ends past' result' →
    ⟨.getFeatures entityId, (.ok (some features) : Except Unit (Option Features))⟩ ∈ past →
    some loaded ∈ modelsRead past → some loaded ∈ modelsRead past' →
      outcome result = outcome result' ∧ outcome result = loaded.predicts features

/-- A prediction for an entity is the prediction for the features that the
feature server has of it. -/
theorem entity_agrees_with_raw (answer : Columns ofText body columns) :
    MapsColumns ofText body columns ∧ ∀ features mapping, onlineFeatures ofText (.ok body) = .ok (some features) →
      features.Perm mapping → SamePrediction features mapping := by
  obtain ⟨complete, incomplete⟩ := onlineFeatures_of_columns answer
  have taken {features : Features} (found : onlineFeatures ofText (.ok body) = .ok (some features)) :
      AllPresent columns ∧ features.map Prod.fst = higgsFeatureNames ∧
        ∀ name x, (name, x) ∈ features → ∃ value, (text name, value) ∈ columns ∧ value.toFloat ofText = some x := by
    by_cases present : AllPresent columns
    · obtain ⟨_, same, names, values⟩ := complete present
      rw [found] at same
      cases same
      exact ⟨present, names, values⟩
    · rw [incomplete present] at found
      cases found
  refine ⟨⟨⟨fun ⟨_, found⟩ => (taken found).1, fun present => ?_⟩, incomplete, fun _ found => (taken found).2.1,
    fun _ found => (taken found).2.2⟩, fun features mapping found reordered => ?_⟩
  · obtain ⟨features, found, _⟩ := complete present
    exact ⟨features, found⟩
  · have names := (taken found).2.1
    have raw : frame mapping = frame features :=
      (frame_of_perm names reordered).trans (frame_of_perm names (List.Perm.refl _)).symm
    refine ⟨exactlyTheHiggsFeatures_of_perm names reordered, frame_of_perm names (List.Perm.refl _), raw, ?_⟩
    intro service loaded entityId traceId traceId' named past past' result result' ends ends' fetched read read'
    have entity := predictEntity_ends ends read fetched
    have same : loaded.predicts mapping = loaded.predicts features := by
      unfold LoadedModel.predicts LoadedModel.proba
      rw [raw]
    exact ⟨entity.trans (same.symm.trans (predictRaw_ends ends' read').symm), entity⟩

/-- The entity's own column, a string, and the features in another order, all
at 1. -/
def sampleColumns : List (Text × Value) :=
  (text "entity_id", .str (text "higgs-000000001")) ::
    higgsFeatureNames.reverse.map fun name => (text name, .float (.literal (text "1.0")))

def sampleResponse : Value :=
  .dict [(text "metadata", .dict [(text "feature_names", .list (sampleColumns.map fun column => .str column.1))]),
    (text "results", .list (sampleColumns.map fun column => .dict [(text "values", .list [column.2])]))]

theorem sample_agrees : MapsColumns (fun _ => none) sampleResponse sampleColumns ∧
    ∀ features mapping, onlineFeatures (fun _ => none) (.ok sampleResponse) = .ok (some features) →
      features.Perm mapping → SamePrediction features mapping := by
  have reads : (Value.float (.literal (text "1.0"))).toFloat (fun _ => none) = some Double.one := by decide +kernel
  have others : ∀ name ∈ higgsFeatureNames, text name ≠ text "entity_id" := by decide +kernel
  refine entity_agrees_with_raw ⟨rfl, ⟨_, rfl, ?_⟩, by decide +kernel, fun name isHiggs value member => ?_⟩
  · rw [List.forall₂_map_left_iff, List.forall₂_same]
    exact fun column _ => rfl
  · rcases List.mem_cons.mp member with entity | feature
    · exact absurd (Prod.mk.inj entity).1 (others name isHiggs)
    · obtain ⟨_, -, same⟩ := List.mem_map.mp feature
      obtain ⟨-, rfl⟩ := Prod.mk.inj same
      exact Or.inr ⟨_, reads⟩

end Amel
