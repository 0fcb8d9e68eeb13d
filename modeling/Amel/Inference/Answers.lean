import Amel.Inference.Api

namespace Amel

open Transition (Reach Guarded)
open Program (lefts)

/-- The prediction that a task asks the service for, under a trace id. -/
def ApiTask.prediction (tid : String) : ApiTask → Option ServiceRequest
  | .predictRaw features entityId _ => some (.predictRaw features entityId tid)
  | .predictEntity entityId _ => some (.predictEntity entityId tid)
  | _ => none

/-- The prediction endpoints. -/
def ApiTask.Predicts : ApiTask → Prop
  | .predictRaw _ _ _ | .predictEntity _ _ => True
  | _ => False

def ApiTask.xTraceId : ApiTask → Option String
  | .predictRaw _ _ xTraceId | .predictEntity _ xTraceId => xTraceId
  | _ => none

/-- The trace id by precedence: of the active trace, else of the caller, else
a fresh one. -/
def TraceIdOf (past : List (Program.Exchange ServerReply)) (xTraceId : Option String) (tid : String) : Prop :=
  ∃ otelTraceId, ⟨.inr .currentTraceIds, otelTraceId⟩ ∈ past ∧
    match (truthy otelTraceId).or (truthy xTraceId) with
    | some known => tid = known
    | none => ⟨.inr .uuidHex, tid⟩ ∈ past

theorem mem_snoc {past : List (Program.Exchange ServerReply)} (exchange : Program.Exchange ServerReply) :
    exchange ∈ past ++ [exchange] :=
  List.mem_append_right _ (List.mem_singleton.mpr rfl)

/-- Nothing was inserted and nothing handed over. -/
def Silent (past : List (Program.Exchange ServiceReply)) : Prop := inserts past = [] ∧ eventsHanded past = []

/-- A model was there and raised for these features. -/
def ModelRaised (features : Features) (past : List (Program.Exchange ServiceReply)) : Prop :=
  ∃ loaded, modelsRead past = [some loaded] ∧ loaded.proba features = none

/-- Why the service raised for a raw prediction. -/
inductive RawRaises (features : Features) (past : List (Program.Exchange ServiceReply)) : ServiceError → Prop
  | noModel : modelsRead past = [none] → RawRaises features past .modelNotLoaded
  | model : ModelRaised features past → RawRaises features past .raised

/-- Why the service raised for a prediction by entity. -/
inductive EntityRaises (service : PredictionService) (entityId : String) (past : List (Program.Exchange ServiceReply)) :
    ServiceError → Prop
  | noClient : service.features = false → EntityRaises service entityId past .noFeatureClient
  | fetch : ⟨.getFeatures entityId, (Except.error () : Except Unit (Option Features))⟩ ∈ past →
      EntityRaises service entityId past .raised
  | noFeatures : ⟨.getFeatures entityId, (Except.ok none : Except Unit (Option Features))⟩ ∈ past →
      EntityRaises service entityId past (.featuresNotFound entityId)
  | noModel : modelsRead past = [none] → EntityRaises service entityId past .modelNotLoaded
  | model {features : Features} :
      ⟨.getFeatures entityId, (Except.ok (some features) : Except Unit (Option Features))⟩ ∈ past →
      ModelRaised features past → EntityRaises service entityId past .raised

section Raises

variable {service : PredictionService} {past : List (Program.Exchange ServiceReply)}

theorem Traced.silent {models : List (Option LoadedModel)} (traced : Traced models [] [] past) : Silent past :=
  ⟨traced.rows, traced.events⟩

/-- A prediction that raises has written nothing, and only a missing model or
the model itself raises. -/
theorem predict_raises (features : Features) (entityId : Option String) (source traceId : String)
    (started : Python.Double) (traced : Traced [] [] [] past) :
    (predict service features entityId source traceId started).Obeys (fun _ _ => True)
      (fun now result => ∀ error, result = .error error → Silent now ∧ RawRaises features now error) past := by
  refine ⟨trivial, fun (current : Option LoadedModel) => ?_⟩
  have read := traced.append ⟨.readCurrent, current⟩
  cases current with
  | none =>
    rintro error same
    cases same
    exact ⟨Traced.silent read, .noModel read.models⟩
  | some loaded =>
    show Program.Obeys _ _ (predictLoaded service loaded features entityId source traceId started) _
    cases found : loaded.proba features with
    | none =>
      rw [predictLoaded, found]
      rintro error same
      cases same
      exact ⟨Traced.silent read, .model ⟨loaded, read.models, found⟩⟩
    | some proba =>
      rw [predictLoaded, found]
      refine ⟨trivial, fun stopped => ⟨trivial, fun predictionId => ?_⟩⟩
      have timed : Traced [some loaded] [] [] (past ++ [⟨.readCurrent, some loaded⟩] ++ [⟨.perfCounter, stopped⟩]) :=
        read.pass rfl rfl rfl
      have named : Traced [some loaded] [] [] (past ++ [⟨.readCurrent, some loaded⟩] ++ [⟨.perfCounter, stopped⟩] ++
          [⟨.uuid4, predictionId⟩]) := timed.pass rfl rfl rfl
      refine (deliver_obeys named found).freely.mono ?_
      rintro now result ⟨answer, returned, -⟩ error raised
      cases returned.symm.trans raised

theorem predictRaw_raises (features : Features) (entityId : Option String) (traceId : String) :
    (predictRaw service features entityId traceId).Obeys (fun _ _ => True)
      (fun now result => ∀ error, result = .error error → Silent now ∧ RawRaises features now error) [] := by
  refine ⟨trivial, fun started => ?_⟩
  have begun : Traced [] [] [] ([] ++ [⟨.perfCounter, started⟩]) := ⟨rfl, rfl, rfl⟩
  exact predict_raises features entityId "raw" traceId started begun

theorem predictEntity_raises (entityId traceId : String) :
    (predictEntity service entityId traceId).Obeys (fun _ _ => True)
      (fun now result => ∀ error, result = .error error → Silent now ∧ EntityRaises service entityId now error) [] := by
  refine ⟨trivial, fun started => ?_⟩
  have begun : Traced [] [] [] ([] ++ [⟨.perfCounter, started⟩]) := ⟨rfl, rfl, rfl⟩
  show Program.Obeys _ _ (if service.features then _ else _) _
  split
  · refine ⟨trivial, fun (reply : Except Unit (Option Features)) => ?_⟩
    have fetched : Traced [] [] [] ([] ++ [⟨.perfCounter, started⟩] ++ [⟨.getFeatures entityId, reply⟩]) :=
      begun.pass rfl rfl rfl
    have asked : (⟨.getFeatures entityId, reply⟩ : Program.Exchange ServiceReply) ∈
        [] ++ [⟨.perfCounter, started⟩] ++ [⟨.getFeatures entityId, reply⟩] :=
      List.mem_append_right _ (List.mem_singleton.mpr rfl)
    match reply with
    | .error () =>
      rintro error same
      cases same
      exact ⟨fetched.silent, .fetch asked⟩
    | .ok none =>
      rintro error same
      cases same
      exact ⟨fetched.silent, .noFeatures asked⟩
    | .ok (some features) =>
      refine (predict_raises features (some entityId) "entity" traceId started fetched).since.mono ?_
      rintro now result ⟨since, raises⟩ error same
      obtain ⟨silent, reason⟩ := raises error same
      refine ⟨silent, ?_⟩
      cases reason with
      | noModel read => exact .noModel read
      | model raised => exact .model (since.subset asked) raised
  · rename_i none
    rintro error same
    cases same
    exact ⟨begun.silent, .noClient (Bool.eq_false_iff.mpr none)⟩

end Raises

/-- How a prediction request ends, by what the thread has met. -/
inductive Answered (service : PredictionService) (past : List (Program.Exchange ServerReply)) :
    ApiTask → Except ServiceError ApiResult → Prop
  | predicted {task : ApiTask} {tid : String} {request : ServiceRequest} {parts : PredictionParts}
      {answer : PredictionResult} : task.prediction tid = some request → TraceIdOf past task.xTraceId tid →
      request.Asks parts → parts.Delivered service (lefts past) answer →
      Answered service past task (.ok (ApiTask.predicted tid answer))
  | invalid {features : Features} {entityId xTraceId : Option String} : ApiTask.accepts features entityId = false →
      Silent (lefts past) →
      Answered service past (.predictRaw features entityId xTraceId) (.ok (.response { status := 422, body := .invalid }))
  | noModel {task : ApiTask} : modelsRead (lefts past) = [none] → Silent (lefts past) →
      Answered service past task (.ok (.response { status := 503, body := .detail "no champion model loaded" }))
  | raised {features : Features} {entityId xTraceId : Option String} : ModelRaised features (lefts past) →
      Silent (lefts past) → Answered service past (.predictRaw features entityId xTraceId) (.error .raised)
  | noFeatures {entityId : String} {xTraceId : Option String} :
      ⟨.getFeatures entityId, (Except.ok none : Except Unit (Option Features))⟩ ∈ lefts past → Silent (lefts past) →
      Answered service past (.predictEntity entityId xTraceId)
        (.ok (.response { status := 404, body := .detail ("no online features for entity " ++ entityId) }))
  | noClient {entityId : String} {xTraceId : Option String} : service.features = false → Silent (lefts past) →
      Answered service past (.predictEntity entityId xTraceId)
        (.ok (.response { status := 502, body := .detail "feature fetch failed: no feature client configured" }))
  | failed {entityId exc : String} {xTraceId : Option String} : EntityRaises service entityId (lefts past) .raised →
      Silent (lefts past) → ⟨.inr .strException, exc⟩ ∈ past →
      Answered service past (.predictEntity entityId xTraceId)
        (.ok (.response { status := 502, body := .detail ("feature fetch failed: " ++ exc) }))

section Endpoints

variable {service : PredictionService} {past : List (Program.Exchange ServerReply)} {xTraceId : Option String}

theorem traceId_obeys (xTraceId : Option String) :
    (traceId xTraceId).Obeys (fun _ _ => True)
      (fun now result => ∃ tid, result = .ok tid ∧ TraceIdOf now xTraceId tid ∧ lefts now = []) [] := by
  refine ⟨trivial, fun (otel : Option String) => ?_⟩
  have asked : (⟨.inr .currentTraceIds, otel⟩ : Program.Exchange ServerReply) ∈
      ([] : List (Program.Exchange ServerReply)) ++ [⟨.inr .currentTraceIds, otel⟩] := List.mem_singleton.mpr rfl
  show Program.Obeys _ _ (knownOrFresh ((truthy otel).or (truthy xTraceId))) _
  cases known : (truthy otel).or (truthy xTraceId) with
  | some tid =>
    refine ⟨tid, rfl, ⟨otel, asked, ?_⟩, rfl⟩
    rw [known]
  | none =>
    refine ⟨trivial, fun (fresh : String) => ⟨fresh, rfl, ⟨otel, List.mem_append_left _ asked, ?_⟩, rfl⟩⟩
    rw [known]
    exact mem_snoc _

theorem TraceIdOf.since {later : List (Program.Exchange ServerReply)} {tid : String} (traced : TraceIdOf past xTraceId tid)
    (since : past <+: later) : TraceIdOf later xTraceId tid := by
  obtain ⟨otel, asked, chosen⟩ := traced
  refine ⟨otel, since.subset asked, ?_⟩
  cases known : (truthy otel).or (truthy xTraceId) with
  | some tid =>
    rw [known] at chosen
    exact chosen
  | none =>
    rw [known] at chosen
    exact since.subset chosen

/-- The prediction of an endpoint with the handlers around it. -/
theorem attempt_obeys {program : ServiceProgram PredictionResult} {tid : String}
    {handler : ServiceError → ApiProgram ApiResult} {asked : PredictionParts → Prop}
    {raises : List (Program.Exchange ServiceReply) → ServiceError → Prop}
    {last : List (Program.Exchange ServerReply) → Except ServiceError ApiResult → Prop}
    (answers : program.Obeys (ServiceRule service) (fun now result => Answers service now asked result) [])
    (fails : program.Obeys (fun _ _ => True)
      (fun now result => ∀ error, result = .error error → Silent now ∧ raises now error) [])
    (fresh : lefts past = [])
    (delivers : ∀ now answer parts, past <+: now → asked parts → parts.Delivered service (lefts now) answer →
      last now (.ok (ApiTask.predicted tid answer)))
    (handles : ∀ now error, past <+: now → Silent (lefts now) → raises (lefts now) error →
      (handler error).Obeys (fun _ _ => True) last now) :
    ((program.inl.bind fun result => .pure (ApiTask.predicted tid result)).rescue handler).Obeys (fun _ _ => True) last
      past := by
  have both := answers.and fails
  rw [← fresh] at both
  let between (now : List (Program.Exchange ServerReply)) : Except ServiceError ApiResult → Prop
    | .ok result => last now (.ok result)
    | .error error => past <+: now ∧ Silent (lefts now) ∧ raises (lefts now) error
  have tried : (program.inl.bind fun result => .pure (ApiTask.predicted tid result) : ApiProgram ApiResult).Obeys
      (fun _ _ => True) between past := by
    refine both.inl.freely.since.bind ?_ ?_
    · rintro now error ⟨since, -, raised⟩
      exact ⟨since, raised error rfl⟩
    · rintro now answer ⟨since, ⟨parts, isAsked, delivered⟩, -⟩
      exact delivers now answer parts since isAsked delivered
  refine tried.rescue ?_ fun _ _ ends => ends
  rintro now error ⟨since, silent, raised⟩
  exact handles now error since silent raised

theorem predictRawEndpoint_obeys (features : Features) (entityId xTraceId : Option String) :
    (ApiTask.predictRawEndpoint service features entityId xTraceId).Obeys (fun _ _ => True)
      (fun now result => Answered service now (.predictRaw features entityId xTraceId) result) [] := by
  refine (traceId_obeys xTraceId).bind ?_ ?_
  · rintro now error ⟨tid, impossible, -⟩
    cases impossible
  · rintro now tid ⟨_, same, traced, fresh⟩
    cases same
    split
    · refine attempt_obeys (predictRaw_obeys features entityId tid) (predictRaw_raises features entityId tid) fresh ?_ ?_
      · exact fun later answer parts since asked delivered => .predicted rfl (traced.since since) asked delivered
      · intro later error _ silent raised
        cases raised with
        | noModel read => exact Answered.noModel read silent
        | model raised => exact Answered.raised raised silent
    · rename_i refused
      refine Answered.invalid (Bool.eq_false_iff.mpr refused) ?_
      rw [fresh]
      exact ⟨rfl, rfl⟩

theorem predictEntityEndpoint_obeys (entityId : String) (xTraceId : Option String) :
    (ApiTask.predictEntityEndpoint service entityId xTraceId).Obeys (fun _ _ => True)
      (fun now result => Answered service now (.predictEntity entityId xTraceId) result) [] := by
  refine (traceId_obeys xTraceId).bind ?_ ?_
  · rintro now error ⟨tid, impossible, -⟩
    cases impossible
  · rintro now tid ⟨_, same, traced, fresh⟩
    cases same
    refine attempt_obeys (predictEntity_obeys entityId tid) (predictEntity_raises entityId tid) fresh ?_ ?_
    · exact fun later answer parts since asked delivered => .predicted rfl (traced.since since) asked delivered
    · intro later error _ silent raised
      have told (reason : EntityRaises service entityId (lefts later) .raised) (exc : String) :
          Answered service (later ++ [⟨.inr .strException, exc⟩]) (.predictEntity entityId xTraceId)
            (.ok (.response { status := 502, body := .detail ("feature fetch failed: " ++ exc) })) := by
        have same : lefts (later ++ [(⟨.inr .strException, exc⟩ : Program.Exchange ServerReply)]) = lefts later :=
          Program.lefts_snoc_inr later ApiCall.strException exc
        refine Answered.failed ?_ ?_ (List.mem_append_right _ (List.mem_singleton.mpr rfl))
        · rwa [same]
        · rwa [same]
      cases raised with
      | noClient none => exact Answered.noClient none silent
      | fetch fetched => exact ⟨trivial, fun exc => told (.fetch fetched) exc⟩
      | noFeatures fetched => exact Answered.noFeatures fetched silent
      | noModel read => exact Answered.noModel read silent
      | model fetched raised => exact ⟨trivial, fun exc => told (.model fetched raised) exc⟩

end Endpoints

namespace Api

variable {service : PredictionService} {settings : ApiSettings} {fleet : ApiFleet} {id : Nat} {s now : Api}
  {request : ServerCall} {reply : ServerReply request} {past : List (Program.Exchange ServerReply)}

/-- A step outside the service leaves the server of the predictions alone. -/
theorem Performs.server {request : ApiCall} {reply : ApiReply request} (performed : Performs id s (.inr request) reply now) :
    now.server = s.server := by
  cases performed <;> rfl

theorem Performs.serves {request : ServiceCall} {reply : ServiceReply request}
    (performed : Performs id s (.inl request) reply now) : Server.Performs id s.server request reply now.server := by
  cases performed with
  | service performed _ => exact performed
  | notSaved _ performed _ => exact performed

/-- The rows and events of every thread are those of its exchanges with the
service. -/
theorem records (reach : Reach (ApiStep service settings) .initial fleet) (id : Nat) :
    fleet.shared.server.Records id (lefts (fleet.processes id).past) := by
  refine (Fleet.invariant (fun _ => True) (fun id s thread => s.server.Records id (lefts thread.past))
    reach.guardTrivially ⟨trivial, fun id => Server.Records.start id⟩ ?_ ?_).2 id
  · exact fun {_ event} => event.elim
  · intro before actor action after next _ taken _ each
    refine ⟨trivial, ?_, fun other different => ?_⟩
    · have own := each actor
      generalize before.processes actor = thread at taken own
      cases taken with
      | start => exact own
      | @call _ past request resume after reply performed =>
        cases request with
        | inl request =>
          have added := Program.lefts_snoc_inl past request reply
          exact added ▸ own.exchange performed.serves
        | inr request =>
          have same := Program.lefts_snoc_inr past request reply
          exact same ▸ performed.server ▸ own
      | «return» | raise | crash => exact own.letGo actor
    · have others := each other
      generalize before.processes actor = thread at taken
      cases taken with
      | start => exact others
      | @call _ past request resume after reply performed =>
        cases request with
        | inl request => exact others.other different performed.serves
        | inr request => exact performed.server ▸ others
      | «return» | raise | crash => exact others.letGo actor

/-- What a thread that has ended had to say follows from its program. -/
theorem ends (reach : Reach (ApiStep service settings) .initial fleet) {task : ApiTask}
    {result : Except ServiceError ApiResult} (ended : fleet.processes id = .ended task past (some result)) :
    (task.body service settings).Ends past result := by
  have follows := Workload.follows reach.guardTrivially (fun _ => trivial) id
  rw [ended] at follows
  cases result with
  | ok value => exact follows
  | error error => exact follows

/-- The row and the events of a prediction say what the answer says. -/
theorem delivered_agrees {parts : PredictionParts} {past : List (Program.Exchange ServiceReply)}
    {answer : PredictionResult} (delivered : parts.Delivered service past answer) :
    parts.row.Agrees answer ∧ ∀ predictedAt, (parts.event predictedAt).Agrees answer := by
  rw [delivered.result]
  exact ⟨⟨rfl, rfl, rfl, rfl, rfl, rfl, rfl, rfl, rfl⟩, fun _ => ⟨rfl, rfl, rfl, rfl, rfl, rfl, rfl, rfl, rfl⟩⟩

theorem delivered_row {parts : PredictionParts} {past : List (Program.Exchange ServiceReply)}
    {answer : PredictionResult} (delivered : parts.Delivered service past answer) {row : Prediction} {saved : Bool}
    (inserted : (row, saved) ∈ inserts past) : row = parts.row := by
  rw [delivered.rows] at inserted
  split at inserted
  · exact (Prod.mk.inj (List.mem_singleton.mp inserted)).1
  · cases inserted

theorem silent_of_answered {task : ApiTask} {result : Except ServiceError ApiResult}
    (answered : Answered service past task result)
    (other : ∀ tid answer, result ≠ .ok (ApiTask.predicted tid answer)) : Silent (lefts past) := by
  cases answered with
  | predicted => exact absurd rfl (other _ _)
  | invalid _ silent | noModel _ silent | raised _ silent | noFeatures _ silent | noClient _ silent => exact silent
  | failed _ silent _ => exact silent

theorem answered_of_ends {task : ApiTask} {result : Except ServiceError ApiResult} (predicts : task.Predicts)
    (ends : (task.body service settings).Ends past result) : Answered service past task result := by
  cases task with
  | predictRaw features entityId xTraceId => exact ends.obeys (predictRawEndpoint_obeys features entityId xTraceId)
  | predictEntity entityId xTraceId => exact ends.obeys (predictEntityEndpoint_obeys entityId xTraceId)
  | _ => exact predicts.elim

/-- **What a prediction request is answered.** In every reachable state, a
prediction request that has ended was answered in one of seven ways, each with
its own cause; where the answer is a prediction, its trace id is the one of
the header and of its row and events, and these say what the answer says;
where it is not, the request has left no row and no event. -/
theorem prediction_answered (reach : Reach (ApiStep service settings) .initial fleet) {task : ApiTask}
    {result : Except ServiceError ApiResult} (ended : fleet.processes id = .ended task past (some result))
    (predicts : task.Predicts) :
    Answered service past task result ∧
    (∀ tid answer, result = .ok (ApiTask.predicted tid answer) → answer.traceId = tid ∧
      (∀ row, (id, row) ∈ fleet.shared.server.predictions → row.Agrees answer) ∧
      (∀ event, (id, event) ∈ fleet.shared.server.handed → event.Agrees answer) ∧
      (service.store = true → answer.persisted = true → ∃ row, (id, row) ∈ fleet.shared.server.predictions)) ∧
    ((∀ tid answer, result ≠ .ok (ApiTask.predicted tid answer)) →
      (∀ row, (id, row) ∉ fleet.shared.server.predictions) ∧ ∀ event, (id, event) ∉ fleet.shared.server.handed) := by
  have answered := answered_of_ends predicts (ends reach ended)
  have records := records reach id
  rw [ended] at records
  refine ⟨answered, ?_, fun other => ?_⟩
  · rintro tid answer rfl
    generalize same : Except.ok (ApiTask.predicted tid answer) = result at answered
    cases answered with
    | @predicted _ _ request parts answer asks traced asked delivered =>
      cases same
      obtain ⟨rowAgrees, eventAgrees⟩ := delivered_agrees delivered
      have requested : answer.traceId = parts.traceId := by rw [delivered.result]; rfl
      refine ⟨requested.trans ?_, fun row member => ?_, fun event member => ?_, fun stores saved => ⟨parts.row, ?_⟩⟩
      · cases task with
        | predictRaw =>
          cases asks
          exact asked.2.2.2
        | predictEntity =>
          cases asks
          exact asked.2.2
        | _ => exact predicts.elim
      · obtain ⟨saved, inserted⟩ := records.row row member
        rw [delivered_row delivered inserted]
        exact rowAgrees
      · obtain ⟨predictedAt, rfl⟩ := delivered.events event (records.event event member)
        exact eventAgrees predictedAt
      · refine records.committed parts.row ?_
        show _ ∈ inserts (lefts past)
        rw [delivered.rows, if_pos stores, saved]
        exact List.mem_singleton.mpr rfl
    | _ => cases same
  · obtain ⟨noRows, noEvents⟩ := silent_of_answered answered other
    refine ⟨fun row member => ?_, fun event member => ?_⟩
    · obtain ⟨saved, inserted⟩ := records.row row member
      have none : (row, saved) ∈ ([] : List (Prediction × Bool)) := noRows ▸ inserted
      cases none
    · have none : event ∈ ([] : List PredictionEvent) := noEvents ▸ records.event event member
      cases none

section NoModel

open Workload (reach_start reach_call reach_return)

/-- The answer to a request while no model is loaded. -/
def unloadedAnswer : ApiResult := .response { status := 503, body := .detail "no champion model loaded" }

theorem early_request_reached : ∃ (fleet : ApiFleet) (past : List (Program.Exchange ServerReply)),
    Reach (ApiStep wholeService {}) .initial fleet ∧
      fleet.processes 0 = .ended (.predictRaw zeroFeatures none (some "trace")) past (some (.ok unloadedAnswer)) := by
  have initial : Reach (Guarded (ApiStep wholeService {}) fun _ _ => True) .initial
      ⟨{}, Function.update (fun _ => .idle) 0 .idle⟩ := by
    rw [Function.update_eq_self_iff.mpr rfl]
    exact .refl
  have started := reach_start initial (.predictRaw zeroFeatures none (some "trace")) trivial
  have asked := reach_call started rfl (none : Option String) (.currentTraceIds _) trivial
  have timed := reach_call asked rfl (0 : Python.Double) (.service (.perfCounter _) rfl) trivial
  have read := reach_call timed rfl (none : Option LoadedModel) (.service .readCurrent rfl) trivial
  exact ⟨_, _, (reach_return read rfl trivial).forget_guard, rfl⟩

theorem early_request_answered : ∃ (fleet : ApiFleet) (past : List (Program.Exchange ServerReply)),
    Reach (ApiStep wholeService {}) .initial fleet ∧
      Answered wholeService past (.predictRaw zeroFeatures none (some "trace")) (.ok unloadedAnswer) ∧
      ∀ row, (0, row) ∉ fleet.shared.server.predictions := by
  obtain ⟨fleet, past, reach, ended⟩ := early_request_reached
  obtain ⟨answered, -, silent⟩ := prediction_answered reach ended trivial
  exact ⟨fleet, past, reach, answered, (silent fun tid answer same => by cases same).1⟩

end NoModel

end Api

end Amel
