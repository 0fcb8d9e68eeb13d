import Amel.Inference.Access
import Amel.Inference.Answers

namespace Amel

open Python (Double)
open Transition (Reach Guarded)
open Program (lefts)

/-- The model gives the features this probability, and that is this label. -/
structure LoadedModel.Gives (loaded : LoadedModel) (features : Features) (prediction : Int) (probability : Double) :
    Prop where
  proba : loaded.proba features = some probability
  label : prediction = labelOf probability

/-- The row names the model and holds what it gives. -/
structure Prediction.MadeBy (row : Prediction) (loaded : LoadedModel) : Prop where
  name : row.modelName = loaded.metadata.name
  version : row.modelVersion = loaded.metadata.version
  gives : loaded.Gives row.features row.prediction row.probability

/-- The event names the model and holds what it gives some features. -/
structure PredictionEvent.MadeBy (event : PredictionEvent) (loaded : LoadedModel) : Prop where
  name : event.modelName = loaded.metadata.name
  version : event.modelVersion = loaded.metadata.version
  gives : ∃ features, loaded.Gives features event.prediction event.probability

/-- A row that is inserted and an event that is handed over are made by a
model that the thread has read. -/
def OriginRule (past : List (Program.Exchange ServiceReply)) : ServiceCall → Prop
  | .insertPrediction row => ∃ loaded, some loaded ∈ modelsRead past ∧ row.MadeBy loaded
  | .publish event => ∃ loaded, some loaded ∈ modelsRead past ∧ event.MadeBy loaded
  | _ => True

section Origin

variable {service : PredictionService} {parts : PredictionParts} {past : List (Program.Exchange ServiceReply)}

theorem modelsRead_since {later : List (Program.Exchange ServiceReply)} {current : Option LoadedModel}
    (read : current ∈ modelsRead past) (since : past <+: later) : current ∈ modelsRead later :=
  (since.sublist.filterMap _).subset read

theorem exchange_of_read {current : Option LoadedModel} (read : current ∈ modelsRead past) :
    (⟨.readCurrent, current⟩ : Program.Exchange ServiceReply) ∈ past := by
  obtain ⟨⟨request, reply⟩, made, isRead⟩ := List.mem_filterMap.mp read
  cases request with
  | readCurrent =>
    cases isRead
    exact made
  | _ => cases isRead

theorem exchange_of_insert {row : Prediction} {saved : Bool} (inserted : (row, saved) ∈ inserts past) :
    ∃ reply, (⟨.insertPrediction row, reply⟩ : Program.Exchange ServiceReply) ∈ past := by
  obtain ⟨⟨request, reply⟩, made, isInsert⟩ := List.mem_filterMap.mp inserted
  cases request with
  | insertPrediction =>
    cases isInsert
    exact ⟨reply, made⟩
  | _ => cases isInsert

theorem exchange_of_event {event : PredictionEvent} (handed : event ∈ eventsHanded past) :
    ∃ reply, (⟨.publish event, reply⟩ : Program.Exchange ServiceReply) ∈ past := by
  obtain ⟨⟨request, reply⟩, made, isPublish⟩ := List.mem_filterMap.mp handed
  cases request with
  | publish =>
    cases isPublish
    exact ⟨reply, made⟩
  | _ => cases isPublish

theorem save_origin (row : Prediction) (made : OriginRule past (.insertPrediction row)) :
    (save row).Obeys OriginRule (fun _ _ => True) past := by
  refine ⟨made, fun (reply : Except Unit Unit) => ?_⟩
  cases reply <;> trivial

theorem publishValid_origin (made : ∀ instant, OriginRule past (.publish (parts.event instant))) (instant : Datetime) :
    (publishValid (parts.event instant).validate).Obeys OriginRule (fun _ _ => True) past := by
  cases found : (parts.event instant).validate with
  | none => trivial
  | some valid =>
    have same : valid = parts.event instant := by
      unfold PredictionEvent.validate at found
      split at found <;> cases found
      rfl
    rw [same]
    refine ⟨made instant, fun (reply : Except Unit Unit) => ?_⟩
    cases reply <;> trivial

theorem announce_origin (read : some parts.loaded ∈ modelsRead past)
    (gives : parts.loaded.proba parts.features = some parts.proba) :
    (announce service parts.event).Obeys OriginRule (fun _ _ => True) past := by
  unfold announce
  split
  · have told : (ServiceProgram.utcNow.bind fun now => publishValid (parts.event now).validate).Obeys OriginRule
        (fun _ _ => True) past := by
      refine ⟨trivial, fun (instant : Datetime) => publishValid_origin (fun instant => ?_) instant⟩
      exact ⟨parts.loaded, modelsRead_since read (List.prefix_append ..), rfl, rfl, parts.features, gives, rfl⟩
    exact told.rescue (fun _ _ _ => trivial) fun _ _ _ => trivial
  · trivial

theorem deliver_origin (read : some parts.loaded ∈ modelsRead past)
    (gives : parts.loaded.proba parts.features = some parts.proba) :
    (deliver service parts).Obeys OriginRule (fun _ _ => True) past := by
  have stored : (persist service parts.row).Obeys OriginRule (fun _ _ => True) past := by
    unfold persist
    split
    · exact save_origin _ ⟨parts.loaded, read, rfl, rfl, gives, rfl⟩
    · trivial
  refine stored.since.bind (fun _ _ _ => trivial) fun now persisted ended => ?_
  exact (announce_origin (modelsRead_since read ended.1) gives).bind (fun _ _ _ => trivial) fun _ _ _ => trivial

theorem predict_origin (features : Features) (entityId : Option String) (source traceId : String) (started : Double) :
    (predict service features entityId source traceId started).Obeys OriginRule (fun _ _ => True) past := by
  refine ⟨trivial, fun (current : Option LoadedModel) => ?_⟩
  cases current with
  | none => trivial
  | some loaded =>
    show Program.Obeys _ _ (predictLoaded service loaded features entityId source traceId started) _
    have read : some loaded ∈ modelsRead (past ++ [⟨.readCurrent, some loaded⟩]) := by
      rw [modelsRead, List.filterMap_append]
      exact List.mem_append_right _ (List.mem_singleton.mpr rfl)
    cases found : loaded.proba features with
    | none =>
      rw [predictLoaded, found]
      trivial
    | some proba =>
      rw [predictLoaded, found]
      refine ⟨trivial, fun stopped => ⟨trivial, fun predictionId => deliver_origin ?_ found⟩⟩
      exact modelsRead_since read ((List.prefix_append ..).trans (List.prefix_append ..))

theorem predictRaw_origin (features : Features) (entityId : Option String) (traceId : String) :
    (predictRaw service features entityId traceId).Obeys OriginRule (fun _ _ => True) past :=
  ⟨trivial, fun started => predict_origin features entityId "raw" traceId started⟩

theorem predictEntity_origin (entityId traceId : String) :
    (predictEntity service entityId traceId).Obeys OriginRule (fun _ _ => True) past := by
  refine ⟨trivial, fun started => ?_⟩
  show Program.Obeys _ _ (if service.features then _ else _) _
  split
  · refine ⟨trivial, fun (reply : Except Unit (Option Features)) => ?_⟩
    cases reply with
    | error => trivial
    | ok found =>
      cases found with
      | none => trivial
      | some features => exact predict_origin features (some entityId) "entity" traceId started
  · trivial

end Origin

namespace Api

variable {service : PredictionService} {settings : ApiSettings} {id : Nat} {fleet : ApiFleet}
  {past : List (Program.Exchange ServerReply)}

/-- The rule among the other calls of the application. -/
def Originates (past : List (Program.Exchange ServerReply)) (request : ServerCall) : Prop :=
  Sum.elim (OriginRule (lefts past)) (fun _ => True) request

theorem originates_of_observes {request : ServerCall} (observes : Observes request) : Originates past request := by
  cases request with
  | inl request =>
    cases request with
    | readCurrent => trivial
    | _ => exact observes.elim
  | inr => trivial

theorem originates_of_refreshes {request : ServerCall} (refreshes : Refreshes service request) :
    Originates past request := by
  cases request with
  | inl request =>
    cases request with
    | insertPrediction | publish => exact refreshes.elim
    | _ => trivial
  | inr => trivial

/-- A task that answers no prediction only looks at the process or refreshes. -/
theorem body_observes_or_refreshes {task : ApiTask} (other : ¬ task.Predicts) :
    (task.body service settings).Uses Observes ∨ (task.body service settings).Uses (Refreshes service) := by
  cases task with
  | loadInitial => exact Or.inr (refreshCache_refreshes.bind fun _ => trivial)
  | refreshLoop rounds => exact Or.inr (refreshRounds_refreshes rounds)
  | delivered err => exact Or.inl ((onDelivery_observes err).bind fun _ => trivial)
  | health => exact Or.inl trivial
  | ready => exact Or.inl (readiness_observes.bind fun _ => trivial)
  | model => exact Or.inl (modelEndpoint_observes settings)
  | refresh token => exact Or.inr (refreshEndpoint_refreshes token)
  | predictRaw | predictEntity => exact absurd trivial other

/-- The prediction of an endpoint, once it has its trace id. -/
theorem attempt_originates {program : ServiceProgram PredictionResult} {tid : String}
    {handler : ServiceError → ApiProgram ApiResult} (origin : program.Obeys OriginRule (fun _ _ => True) (lefts past))
    (handles : ∀ error, (handler error).Uses Observes) :
    ((program.inl.bind fun result => .pure (ApiTask.predicted tid result)).rescue handler).Obeys Originates
      (fun _ _ => True) past := by
  have asks : (program.inl.bind fun result => .pure (ApiTask.predicted tid result) : ApiProgram ApiResult).Obeys
      Originates (fun _ _ => True) past :=
    origin.inl.bind (fun _ _ _ => trivial) fun _ _ _ => trivial
  exact asks.rescue (fun _ error _ => (handles error).obeys fun _ _ => originates_of_observes) fun _ _ _ => trivial

theorem body_originates (task : ApiTask) : (task.body service settings).Obeys Originates (fun _ _ => True) [] := by
  have traced (xTraceId : Option String) : (traceId xTraceId).Obeys Originates (fun _ _ => True) [] :=
    traceId_observes.obeys fun _ _ => originates_of_observes
  by_cases predicts : task.Predicts
  · cases task with
    | predictRaw features entityId xTraceId =>
      refine (traced xTraceId).bind (fun _ _ _ => trivial) fun _ tid _ => ?_
      split
      · refine attempt_originates (predictRaw_origin features entityId tid) fun error => ?_
        cases error <;> trivial
      · trivial
    | predictEntity entityId xTraceId =>
      refine (traced xTraceId).bind (fun _ _ _ => trivial) fun _ tid _ => ?_
      refine attempt_originates (predictEntity_origin entityId tid) fun error => ?_
      cases error with
      | raised => exact ⟨trivial, fun _ => trivial⟩
      | _ => trivial
    | _ => exact predicts.elim
  · rcases body_observes_or_refreshes predicts with observes | refreshes
    · exact observes.obeys fun _ _ => originates_of_observes
    · exact refreshes.obeys fun _ _ => originates_of_refreshes

/-- Every call that a thread of a living process has made kept the rule. -/
theorem originated (reach : Reach (Guarded (ApiStep service settings) (Living settings)) .initial fleet)
    {exchange : Program.Exchange ServerReply} (made : exchange ∈ (fleet.processes id).past) :
    ∃ before, before <+: (fleet.processes id).past ∧ Originates before exchange.1 := by
  have follows := Workload.follows reach (fun _ => trivial) id
  have whole := (kept reach id).whole
  generalize fleet.processes id = thread at made follows whole
  cases thread with
  | idle => cases made
  | running task past rest => exact Program.Runs.obeyed follows (body_originates task) made
  | ended task past result =>
    cases result with
    | none => exact absurd rfl (whole _ _)
    | some result =>
      cases result with
      | ok value => exact Program.Runs.obeyed follows (body_originates task) made
      | error error => exact Program.Runs.obeyed follows (body_originates task) made

/-- The answers of the loader stay noted. -/
theorem loads_grow {origin : ApiFleet}
    (reach : Reach (Guarded (ApiStep service settings) (Living settings)) origin fleet) :
    origin.shared.loads <+: fleet.shared.loads := by
  refine reach.relates (fun before after => before.shared.loads <+: after.shared.loads) (fun _ => List.prefix_rfl)
    List.IsPrefix.trans ?_
  rintro before action after ⟨taken, -⟩
  cases taken with
  | @environment event => exact event.elim
  | @process actor action shared next taken =>
    generalize before.processes actor = thread at taken
    cases taken with
    | call reply performed => exact performed.loads ▸ List.prefix_append ..
    | start | «return» | raise | crash => exact List.prefix_rfl

/-- A model that a thread has read was answered by the loader. -/
theorem read_loaded (reach : Reach (Guarded (ApiStep service settings) (Living settings)) .initial fleet)
    {model : LoadedModel} (read : some model ∈ modelsRead (lefts (fleet.processes id).past)) :
    ∃ other, (other, LoaderOutcome.loaded model) ∈ fleet.shared.loads := by
  have made := Program.mem_of_lefts (exchange_of_read read)
  obtain ⟨before, now, reached, -, performed, through, onward⟩ := Workload.happened reach rfl made
  have current := performed.readCurrent.1
  obtain ⟨other, noted⟩ := served_loaded reached current.symm
  exact ⟨other, (loads_grow (through.trans onward)).subset noted⟩

/-- Every row of a living process is made by a model that its loader
answered. -/
theorem row_loaded (reach : Reach (Guarded (ApiStep service settings) (Living settings)) .initial fleet)
    {row : Prediction} (stored : (id, row) ∈ fleet.shared.server.predictions) :
    ∃ other model, (other, LoaderOutcome.loaded model) ∈ fleet.shared.loads ∧ row.MadeBy model := by
  obtain ⟨saved, inserted⟩ := (records reach.forget_guard id).row row stored
  obtain ⟨reply, insert⟩ := exchange_of_insert inserted
  obtain ⟨before, since, model, read, made⟩ := originated reach (Program.mem_of_lefts insert)
  obtain ⟨other, noted⟩ := read_loaded reach (modelsRead_since read (Program.lefts_prefix since))
  exact ⟨other, model, noted, made⟩

/-- Every event handed to the publisher is, too. -/
theorem event_loaded (reach : Reach (Guarded (ApiStep service settings) (Living settings)) .initial fleet)
    {event : PredictionEvent} (handed : (id, event) ∈ fleet.shared.server.handed) :
    ∃ other model, (other, LoaderOutcome.loaded model) ∈ fleet.shared.loads ∧ event.MadeBy model := by
  obtain ⟨reply, publish⟩ := exchange_of_event ((records reach.forget_guard id).event event handed)
  obtain ⟨before, since, model, read, made⟩ := originated reach (Program.mem_of_lefts publish)
  obtain ⟨other, noted⟩ := read_loaded reach (modelsRead_since read (Program.lefts_prefix since))
  exact ⟨other, model, noted, made⟩

/-- Every prediction answered is made by a model that the thread has read. -/
theorem answer_read (reach : Reach (ApiStep service settings) .initial fleet) {task : ApiTask} {tid : String}
    {answer : PredictionResult}
    (ended : fleet.processes id = .ended task past (some (.ok (ApiTask.predicted tid answer))))
    (predicts : task.Predicts) : ∃ model, some model ∈ modelsRead (lefts past) ∧ answer.model = model.metadata ∧
      ∃ features, model.Gives features answer.prediction answer.probability := by
  have answered := answered_of_ends predicts (ends reach ended)
  generalize same : Except.ok (ApiTask.predicted tid answer) = result at answered
  cases answered with
  | @predicted _ _ request parts answer asks traced asked delivered =>
    cases same
    refine ⟨parts.loaded, ?_, ?_⟩
    · rw [delivered.read]
      exact List.mem_singleton.mpr rfl
    · rw [delivered.result]
      exact ⟨rfl, parts.features, delivered.proba, rfl⟩
  | _ => cases same

theorem answer_loaded (reach : Reach (Guarded (ApiStep service settings) (Living settings)) .initial fleet)
    {task : ApiTask} {tid : String} {answer : PredictionResult}
    (ended : fleet.processes id = .ended task past (some (.ok (ApiTask.predicted tid answer))))
    (predicts : task.Predicts) : ∃ other model, (other, LoaderOutcome.loaded model) ∈ fleet.shared.loads ∧
      answer.model = model.metadata ∧ ∃ features, model.Gives features answer.prediction answer.probability := by
  obtain ⟨model, read, made⟩ := answer_read reach.forget_guard ended predicts
  have readThere : some model ∈ modelsRead (lefts (fleet.processes id).past) := by
    rw [ended]
    exact read
  obtain ⟨other, noted⟩ := read_loaded reach readThere
  exact ⟨other, model, noted, made⟩

end Api

end Amel
