import Amel.Inference.Server

namespace Amel

open Transition (Reach Guarded)
open Workload (reach_start reach_call reach_return)

/-- What a thread has read of the cached model. -/
def modelsRead (past : List (Program.Exchange ServiceReply)) : List (Option LoadedModel) :=
  past.filterMap fun
    | ⟨.readCurrent, reply⟩ => some (reply : Option LoadedModel)
    | _ => none

/-- The rows a thread has tried to insert, and whether the insert returned. -/
def inserts (past : List (Program.Exchange ServiceReply)) : List (Prediction × Bool) :=
  past.filterMap fun
    | ⟨.insertPrediction row, reply⟩ => some (row, (reply : Except Unit Unit).isOk)
    | _ => none

/-- The events a thread has handed to the publisher. -/
def eventsHanded (past : List (Program.Exchange ServiceReply)) : List PredictionEvent :=
  past.filterMap fun
    | ⟨.publish event, _⟩ => some event
    | _ => none

/-- What a thread has read, inserted and handed over so far. -/
structure Traced (models : List (Option LoadedModel)) (rows : List (Prediction × Bool))
    (events : List PredictionEvent) (past : List (Program.Exchange ServiceReply)) : Prop where
  models : modelsRead past = models
  rows : inserts past = rows
  events : eventsHanded past = events

section Trace

variable {models : List (Option LoadedModel)} {rows : List (Prediction × Bool)} {events : List PredictionEvent}
  {past : List (Program.Exchange ServiceReply)} {service : PredictionService}

theorem Traced.append (traced : Traced models rows events past) (exchange : Program.Exchange ServiceReply) :
    Traced (models ++ modelsRead [exchange]) (rows ++ inserts [exchange]) (events ++ eventsHanded [exchange])
      (past ++ [exchange]) where
  models := by rw [modelsRead, List.filterMap_append, ← modelsRead, ← modelsRead, traced.models]
  rows := by rw [inserts, List.filterMap_append, ← inserts, ← inserts, traced.rows]
  events := by rw [eventsHanded, List.filterMap_append, ← eventsHanded, ← eventsHanded, traced.events]

/-- An exchange that is none of the three. -/
theorem Traced.pass (traced : Traced models rows events past) {exchange : Program.Exchange ServiceReply}
    (noModel : modelsRead [exchange] = []) (noRow : inserts [exchange] = []) (noEvent : eventsHanded [exchange] = []) :
    Traced models rows events (past ++ [exchange]) := by
  simpa only [noModel, noRow, noEvent, List.append_nil] using traced.append exchange

/-- With a store an event is handed over only after the insert of a row of
its prediction. -/
def ServiceRule (service : PredictionService) (past : List (Program.Exchange ServiceReply)) : ServiceCall → Prop
  | .publish event => service.store = true → ∃ row saved, (row, saved) ∈ inserts past ∧
      row.predictionId = event.predictionId
  | _ => True

theorem persist_obeys (row : Prediction) (traced : Traced models [] [] past) :
    (persist service row).Obeys (ServiceRule service) (fun now result => ∃ persisted, result = .ok persisted ∧
      Traced models (if service.store then [(row, persisted)] else []) [] now) past := by
  unfold persist
  split
  · refine ⟨trivial, fun reply => ?_⟩
    match (reply : Except Unit Unit) with
    | .ok () =>
      have inserted := traced.append ⟨.insertPrediction row, (Except.ok () : Except Unit Unit)⟩
      exact ⟨true, rfl, inserted.models.trans (List.append_nil _), inserted.rows, inserted.events⟩
    | .error () =>
      have inserted := traced.append ⟨.insertPrediction row, (Except.error () : Except Unit Unit)⟩
      exact ⟨false, rfl, inserted.models.trans (List.append_nil _), inserted.rows, inserted.events⟩
  · exact ⟨false, rfl, traced⟩

theorem announce_obeys (event : Datetime → PredictionEvent) (traced : Traced models rows [] past)
    (saved : service.store = true → ∀ now, ∃ row saved, (row, saved) ∈ rows ∧
      row.predictionId = (event now).predictionId) :
    (announce service event).Obeys (ServiceRule service) (fun now result => result = .ok () ∧
      ∃ events, Traced models rows events now ∧ ∀ handed ∈ events, ∃ instant, handed = event instant) past := by
  unfold announce
  split
  · refine ⟨trivial, fun instant => ?_⟩
    have asked : Traced models rows [] (past ++ [⟨.utcNow, instant⟩]) := traced.pass rfl rfl rfl
    show Program.Obeys _ _ (Program.rescue (publishValid (event instant).validate) fun _ => .pure ()) _
    have same : ∀ valid, (event instant).validate = some valid → valid = event instant := by
      intro valid found
      unfold PredictionEvent.validate at found
      split at found <;> cases found
      rfl
    cases found : (event instant).validate with
    | some valid =>
      obtain rfl := same valid found
      refine ⟨fun store => ?_, fun reply => ?_⟩
      · rw [asked.rows]
        exact saved store instant
      · have handed := asked.append ⟨.publish (event instant), reply⟩
        have ended : Traced models rows [event instant]
            (past ++ [⟨.utcNow, instant⟩] ++ [⟨.publish (event instant), reply⟩]) :=
          ⟨handed.models.trans (List.append_nil _), handed.rows.trans (List.append_nil _), handed.events⟩
        have only : ∀ handed ∈ [event instant], ∃ instant, handed = event instant := by
          intro handed member
          exact ⟨instant, List.mem_singleton.mp member⟩
        match (reply : Except Unit Unit) with
        | .ok () => exact ⟨rfl, _, ended, only⟩
        | .error () => exact ⟨rfl, _, ended, only⟩
    | none => exact ⟨rfl, [], asked, List.forall_mem_nil _⟩
  · exact ⟨rfl, [], traced, List.forall_mem_nil _⟩

/-- What has been made of the one model that was read when the answer is
there. -/
structure PredictionParts.Delivered (parts : PredictionParts) (service : PredictionService)
    (past : List (Program.Exchange ServiceReply)) (result : PredictionResult) : Prop where
  read : modelsRead past = [some parts.loaded]
  proba : parts.loaded.proba parts.features = some parts.proba
  rows : inserts past = if service.store then [(parts.row, result.persisted)] else []
  events : ∀ event ∈ eventsHanded past, ∃ predictedAt, event = parts.event predictedAt
  result : result = parts.result result.persisted

theorem deliver_obeys {parts : PredictionParts} (traced : Traced [some parts.loaded] [] [] past)
    (proba : parts.loaded.proba parts.features = some parts.proba) :
    (deliver service parts).Obeys (ServiceRule service) (fun now result => ∃ answer, result = .ok answer ∧
      parts.Delivered service now answer) past := by
  refine (persist_obeys parts.row traced).bind ?_ ?_
  · rintro now error ⟨persisted, impossible, -⟩
    cases impossible
  · rintro now persisted ⟨_, same, stored⟩
    cases same
    refine (announce_obeys parts.event stored fun store instant => ?_).bind ?_ ?_
    · exact ⟨parts.row, persisted, by simp [store], rfl⟩
    · rintro later error ⟨impossible, -⟩
      cases impossible
    · rintro later _ ⟨-, events, published, only⟩
      exact ⟨parts.result persisted, rfl, published.models, proba, published.rows,
        fun event member => only event (published.events ▸ member), rfl⟩

/-- How an answer to a request comes about. -/
def Answers (service : PredictionService) (past : List (Program.Exchange ServiceReply))
    (asked : PredictionParts → Prop) : Except ServiceError PredictionResult → Prop
  | .ok result => ∃ parts : PredictionParts, asked parts ∧ parts.Delivered service past result
  | .error .modelNotLoaded => modelsRead past = [none]
  | .error _ => True

theorem predict_obeys (features : Features) (entityId : Option String) (source traceId : String)
    (started : Python.Double) (traced : Traced [] [] [] past) :
    (predict service features entityId source traceId started).Obeys (ServiceRule service)
      (fun now result => Answers service now (fun parts => parts.features = features ∧ parts.entityId = entityId ∧
        parts.source = source ∧ parts.traceId = traceId) result) past := by
  refine ⟨trivial, fun current => ?_⟩
  have read := traced.append ⟨.readCurrent, current⟩
  match (current : Option LoadedModel) with
  | none => exact read.models
  | some loaded =>
    show Program.Obeys _ _ (predictLoaded service loaded features entityId source traceId started) _
    cases found : loaded.proba features with
    | none =>
      rw [predictLoaded, found]
      trivial
    | some proba =>
      rw [predictLoaded, found]
      refine ⟨trivial, fun stopped => ⟨trivial, fun predictionId => ?_⟩⟩
      have timed : Traced [some loaded] [] [] (past ++ [⟨.readCurrent, some loaded⟩] ++ [⟨.perfCounter, stopped⟩]) :=
        read.pass rfl rfl rfl
      have named : Traced [some loaded] [] [] (past ++ [⟨.readCurrent, some loaded⟩] ++ [⟨.perfCounter, stopped⟩] ++
          [⟨.uuid4, predictionId⟩]) := timed.pass rfl rfl rfl
      refine (deliver_obeys named found).mono ?_
      rintro now _ ⟨answer, rfl, delivered⟩
      exact ⟨_, ⟨rfl, rfl, rfl, rfl⟩, delivered⟩

theorem Answers.mono {asked wider : PredictionParts → Prop} {result : Except ServiceError PredictionResult}
    (answers : Answers service past asked result) (weaker : ∀ parts, asked parts → wider parts) :
    Answers service past wider result := by
  match result with
  | .ok result =>
    obtain ⟨parts, isAsked, delivered⟩ := answers
    exact ⟨parts, weaker parts isAsked, delivered⟩
  | .error .modelNotLoaded => exact answers
  | .error (.featuresNotFound _) | .error .noFeatureClient | .error .raised => trivial

/-- What a request asks for. -/
def ServiceRequest.Asks : ServiceRequest → PredictionParts → Prop
  | .predictRaw features entityId traceId, parts =>
    parts.features = features ∧ parts.entityId = entityId ∧ parts.source = "raw" ∧ parts.traceId = traceId
  | .predictEntity entityId traceId, parts =>
    parts.entityId = some entityId ∧ parts.source = "entity" ∧ parts.traceId = traceId
  | .refresh, _ => False

theorem predictRaw_obeys (features : Features) (entityId : Option String) (traceId : String) :
    (predictRaw service features entityId traceId).Obeys (ServiceRule service)
      (fun now result => Answers service now (ServiceRequest.predictRaw features entityId traceId).Asks result) [] := by
  refine ⟨trivial, fun started => ?_⟩
  have begun : Traced [] [] [] ([] ++ [⟨.perfCounter, started⟩]) := ⟨rfl, rfl, rfl⟩
  exact predict_obeys features entityId "raw" traceId started begun

theorem predictEntity_obeys (entityId traceId : String) :
    (predictEntity service entityId traceId).Obeys (ServiceRule service)
      (fun now result => Answers service now (ServiceRequest.predictEntity entityId traceId).Asks result) [] := by
  refine ⟨trivial, fun started => ?_⟩
  have begun : Traced [] [] [] ([] ++ [⟨.perfCounter, started⟩]) := ⟨rfl, rfl, rfl⟩
  show Program.Obeys _ _ (if service.features then _ else _) _
  split
  · refine ⟨trivial, fun reply => ?_⟩
    have fetched : Traced [] [] [] ([] ++ [⟨.perfCounter, started⟩] ++ [⟨.getFeatures entityId, reply⟩]) :=
      begun.pass rfl rfl rfl
    match (reply : Except Unit (Option Features)) with
    | .error () => trivial
    | .ok none => trivial
    | .ok (some features) =>
      refine (predict_obeys features (some entityId) "entity" traceId started fetched).mono ?_
      exact fun now result answers => answers.mono fun parts asked => asked.2
  · trivial

/-- A refresh raises nothing and hands nothing over. -/
theorem refresh_obeys : (refresh service).Obeys (ServiceRule service) (fun _ result => ∃ versions, result = .ok versions)
    [] := by
  refine ⟨trivial, fun _ => ⟨trivial, fun current => ⟨trivial, fun reply => ?_⟩⟩⟩
  match (reply : Except Unit LoadedModel) with
  | .error () => exact ⟨trivial, fun _ => ⟨_, rfl⟩⟩
  | .ok loaded =>
    refine ⟨trivial, fun again => ?_⟩
    show Program.Obeys _ _ (if _ then _ else _) _
    split
    · exact ⟨trivial, fun _ => ⟨_, rfl⟩⟩
    · exact ⟨trivial, fun _ => ⟨trivial, fun _ => ⟨_, rfl⟩⟩⟩

/-- How a thread ends. -/
def Served (service : PredictionService) (request : ServiceRequest) (past : List (Program.Exchange ServiceReply)) :
    Except ServiceError ServiceResult → Prop
  | .ok (.prediction result) => ∃ parts, request.Asks parts ∧ parts.Delivered service past result
  | .error .modelNotLoaded => modelsRead past = [none]
  | _ => True

theorem serve_obeys (request : ServiceRequest) :
    (service.serve request).Obeys (ServiceRule service) (Served service request) [] := by
  have served {now : List (Program.Exchange ServiceReply)} (error : ServiceError)
      (answers : Answers service now request.Asks (.error error)) : Served service request now (.error error) := by
    cases error with
    | modelNotLoaded => exact answers
    | _ => trivial
  cases request with
  | predictRaw features entityId traceId =>
    exact (predictRaw_obeys features entityId traceId).bind (fun _ => served) fun _ _ answers => answers
  | predictEntity entityId traceId =>
    exact (predictEntity_obeys entityId traceId).bind (fun _ => served) fun _ _ answers => answers
  | refresh =>
    refine refresh_obeys.bind ?_ fun _ _ _ => trivial
    rintro _ _ ⟨_, impossible⟩
    cases impossible

end Trace

section Records

variable {id : Nat} {s after : Server} {request : ServiceCall} {reply : ServiceReply request}

/-- The one row or event that an exchange adds is the thread's own. -/
structure Server.Adds (id : Nat) (s after : Server) (exchange : Program.Exchange ServiceReply) : Prop where
  row : ∀ other row, (other, row) ∈ after.predictions →
    (other, row) ∈ s.predictions ∨ other = id ∧ ∃ saved, (row, saved) ∈ inserts [exchange]
  event : ∀ other event, (other, event) ∈ after.handed →
    (other, event) ∈ s.handed ∨ other = id ∧ event ∈ eventsHanded [exchange]
  committed : ∀ row, (row, true) ∈ inserts [exchange] → (id, row) ∈ after.predictions

theorem Server.Performs.adds (performed : Server.Performs id s request reply after) :
    Server.Adds id s after ⟨request, reply⟩ := by
  cases performed with
  | @inserted row reply =>
    refine ⟨fun other new member => ?_, fun _ _ => Or.inl, fun new member => ?_⟩
    · rcases List.mem_append.mp member with old | added
      · exact Or.inl old
      · obtain ⟨rfl, rfl⟩ := Prod.mk.inj (List.mem_singleton.mp added)
        exact Or.inr ⟨rfl, _, List.mem_singleton.mpr rfl⟩
    · obtain ⟨rfl, -⟩ := Prod.mk.inj (List.mem_singleton.mp member)
      exact List.mem_append_right _ (List.mem_singleton.mpr rfl)
  | notInserted error =>
    refine ⟨fun _ _ => Or.inl, fun _ _ => Or.inl, fun new member => ?_⟩
    obtain ⟨-, impossible⟩ := Prod.mk.inj (List.mem_singleton.mp member)
    cases impossible
  | @publish event reply =>
    refine ⟨fun _ _ => Or.inl, fun other new member => ?_, fun _ member => absurd member List.not_mem_nil⟩
    rcases List.mem_append.mp member with old | added
    · exact Or.inl old
    · obtain ⟨rfl, rfl⟩ := Prod.mk.inj (List.mem_singleton.mp added)
      exact Or.inr ⟨rfl, List.mem_singleton.mpr rfl⟩
  | _ => exact ⟨fun _ _ => Or.inl, fun _ _ => Or.inl, fun _ member => absurd member List.not_mem_nil⟩

/-- The rows and events of a thread are those of its exchanges, and an insert
that returned is committed. -/
structure Server.Records (id : Nat) (s : Server) (past : List (Program.Exchange ServiceReply)) : Prop where
  row : ∀ row, (id, row) ∈ s.predictions → ∃ saved, (row, saved) ∈ inserts past
  event : ∀ event, (id, event) ∈ s.handed → event ∈ eventsHanded past
  committed : ∀ row, (row, true) ∈ inserts past → (id, row) ∈ s.predictions

theorem Server.Records.start (id : Nat) : ServerFleet.initial.shared.Records id [] where
  row _ member := absurd member List.not_mem_nil
  event _ member := absurd member List.not_mem_nil
  committed _ member := absurd member List.not_mem_nil

theorem Server.Records.exchange {past : List (Program.Exchange ServiceReply)} (records : s.Records id past)
    (performed : Server.Performs id s request reply after) : after.Records id (past ++ [⟨request, reply⟩]) := by
  have adds := performed.adds
  have inserted : inserts (past ++ [⟨request, reply⟩]) = inserts past ++ inserts [⟨request, reply⟩] :=
    List.filterMap_append ..
  have handed : eventsHanded (past ++ [⟨request, reply⟩]) = eventsHanded past ++ eventsHanded [⟨request, reply⟩] :=
    List.filterMap_append ..
  refine ⟨fun row member => ?_, fun event member => ?_, fun row member => ?_⟩
  · rw [inserted]
    rcases adds.row id row member with old | ⟨-, saved, new⟩
    · obtain ⟨saved, known⟩ := records.row row old
      exact ⟨saved, List.mem_append_left _ known⟩
    · exact ⟨saved, List.mem_append_right _ new⟩
  · rw [handed]
    rcases adds.event id event member with old | ⟨-, new⟩
    · exact List.mem_append_left _ (records.event event old)
    · exact List.mem_append_right _ new
  · rw [inserted] at member
    rcases List.mem_append.mp member with old | new
    · exact performed.grows.1.subset (records.committed row old)
    · exact adds.committed row new

/-- What another thread does leaves them alone. -/
theorem Server.Records.other {past : List (Program.Exchange ServiceReply)} {actor : Nat} (records : s.Records id past)
    (different : id ≠ actor) (performed : Server.Performs actor s request reply after) : after.Records id past where
  row row member := by
    rcases performed.adds.row id row member with old | ⟨same, -⟩
    · exact records.row row old
    · exact absurd same different
  event event member := by
    rcases performed.adds.event id event member with old | ⟨same, -⟩
    · exact records.event event old
    · exact absurd same different
  committed row member := performed.grows.1.subset (records.committed row member)

theorem Server.Performs.reads {current : Option LoadedModel} (performed : Server.Performs id s .readCurrent current after) :
    current = s.current := by
  cases performed
  rfl

theorem Server.letGo_frame (id : Nat) (s : Server) :
    (s.letGo id).predictions = s.predictions ∧ (s.letGo id).handed = s.handed ∧ (s.letGo id).current = s.current := by
  unfold letGo
  split <;> exact ⟨rfl, rfl, rfl⟩

theorem Server.Records.letGo {past : List (Program.Exchange ServiceReply)} (records : s.Records id past) (ended : Nat) :
    (s.letGo ended).Records id past := by
  obtain ⟨predictions, handed, -⟩ := s.letGo_frame ended
  exact ⟨predictions ▸ records.row, handed ▸ records.event, predictions ▸ records.committed⟩

end Records

variable {service : PredictionService} {origin fleet : ServerFleet}

theorem PredictionService.records (reach : Reach (ServerStep service) .initial fleet) (id : Nat) :
    fleet.shared.Records id (fleet.processes id).past := by
  refine (Fleet.invariant (fun _ => True) (fun id s thread => s.Records id thread.past) reach.guardTrivially
    ⟨trivial, .start⟩ ?_ ?_).2 id
  · exact fun {_ event} => event.elim
  · intro before actor action after next _ taken _ each
    refine ⟨trivial, ?_, fun other different => ?_⟩
    · have own := each actor
      generalize before.processes actor = thread at taken own
      cases taken with
      | start => exact own
      | call reply performed => exact own.exchange performed
      | «return» | raise | crash => exact own.letGo actor
    · have others := each other
      generalize before.processes actor = thread at taken
      cases taken with
      | start => exact others
      | call reply performed => exact others.other different performed
      | «return» | raise | crash => exact others.letGo actor

/-- A model once loaded is replaced only by another. -/
theorem PredictionService.stays_loaded (reach : Reach (ServerStep service) origin fleet)
    (loaded : origin.shared.current.isSome = true) : fleet.shared.current.isSome = true := by
  refine reach.invariant (fun here => here.shared.current.isSome = true) loaded ?_
  rintro before action after - still taken
  cases taken with
  | @environment event => exact event.elim
  | @process actor action shared next taken =>
    generalize before.processes actor = thread at taken
    cases taken with
    | start => exact still
    | call reply performed => exact performed.grows.2 still
    | «return» | raise | crash =>
      show (before.shared.letGo actor).current.isSome = true
      rw [(Server.letGo_frame actor before.shared).2.2]
      exact still

/-- What a thread that has ended had to say follows from its program. -/
theorem PredictionService.served (reach : Reach (ServerStep service) .initial fleet) {id : Nat}
    {request : ServiceRequest} {past : List (Program.Exchange ServiceReply)} {result : Except ServiceError ServiceResult}
    (ended : fleet.processes id = .ended request past (some result)) : Served service request past result := by
  have follows := Workload.follows reach.guardTrivially (fun _ => trivial) id
  rw [ended] at follows
  cases result with
  | ok value => exact Program.Runs.obeys follows (serve_obeys request)
  | error error => exact Program.Runs.obeys follows (serve_obeys request)

/-- A reading of the cached model in the past of a thread is of a moment when
the thread was in progress. -/
theorem PredictionService.was_current (reach : Reach (ServerStep service) origin fleet) {id : Nat}
    (idle : origin.processes id = .idle) {current : Option LoadedModel}
    (read : current ∈ modelsRead (fleet.processes id).past) :
    ∃ during, Reach (ServerStep service) origin during ∧ (during.processes id).InProgress ∧
      during.shared.current = current ∧ Reach (ServerStep service) during fleet := by
  obtain ⟨⟨request, reply⟩, made, isRead⟩ := List.mem_filterMap.mp read
  obtain ⟨during, now, reached, progress, performed, through, onward⟩ :=
    Workload.happened reach.guardTrivially idle made
  cases request with
  | readCurrent =>
    cases isRead
    have current := Server.Performs.reads performed
    exact ⟨during, reached.forget_guard, progress, current.symm, through.forget_guard.trans onward.forget_guard⟩
  | _ => cases isRead

/-- The row says of the prediction what the answer says. -/
structure Prediction.Agrees (row : Prediction) (result : PredictionResult) : Prop where
  predictionId : row.predictionId = result.predictionId
  entityId : row.entityId = result.entityId
  source : row.source = result.source
  modelName : row.modelName = result.model.name
  modelVersion : row.modelVersion = result.model.version
  modelRunId : row.modelRunId = result.model.runId
  prediction : row.prediction = result.prediction
  probability : row.probability = result.probability
  traceId : row.traceId = result.traceId

structure PredictionEvent.Agrees (event : PredictionEvent) (result : PredictionResult) : Prop where
  predictionId : event.predictionId = result.predictionId
  entityId : event.entityId = result.entityId
  source : event.source = result.source
  modelName : event.modelName = result.model.name
  modelVersion : event.modelVersion = result.model.version
  modelRunId : event.modelRunId = result.model.runId
  prediction : event.prediction = result.prediction
  probability : event.probability = result.probability
  traceId : event.traceId = result.traceId

/-- The answer is the one this model gives for some features, which for a raw
request are its own. -/
structure PredictionResult.Of (result : PredictionResult) (loaded : LoadedModel) (request : ServiceRequest) : Prop where
  model : result.model = loaded.metadata
  probability : ∃ features, loaded.proba features = some result.probability ∧
    ∀ own entityId traceId, request = .predictRaw own entityId traceId → own = features
  prediction : result.prediction = labelOf result.probability

theorem PredictionParts.Delivered.of {parts : PredictionParts} {past : List (Program.Exchange ServiceReply)}
    {result : PredictionResult} {request : ServiceRequest} (delivered : parts.Delivered service past result)
    (asked : request.Asks parts) : result.Of parts.loaded request := by
  obtain ⟨-, proba, -, -, made⟩ := delivered
  rw [made]
  refine ⟨rfl, ⟨parts.features, proba, ?_⟩, rfl⟩
  rintro own entityId traceId rfl
  exact asked.1.symm

/-- One model for each prediction. A request that has been answered was
answered by one loaded model, which was the current one at a moment when the
request was in progress; its row and its event agree with the answer. And a
request that starts once a model is loaded is not told that there is none. -/
theorem PredictionService.one_model {start fleet : ServerFleet} {id : Nat} {request : ServiceRequest}
    {past : List (Program.Exchange ServiceReply)} {result : Except ServiceError ServiceResult}
    (reach : Reach (ServerStep service) .initial start) (idle : start.processes id = .idle)
    (run : Reach (ServerStep service) start fleet) (ended : fleet.processes id = .ended request past (some result)) :
    (∀ answer, result = .ok (.prediction answer) →
      (∀ row, (id, row) ∈ fleet.shared.predictions → row.Agrees answer) ∧
      (∀ event, (id, event) ∈ fleet.shared.handed → event.Agrees answer) ∧
      ∃ loaded during, answer.Of loaded request ∧ Reach (ServerStep service) start during ∧
        (during.processes id).InProgress ∧ during.shared.current = some loaded ∧
        Reach (ServerStep service) during fleet) ∧
    (start.shared.current.isSome = true → result ≠ .error .modelNotLoaded) := by
  have served := PredictionService.served (reach.trans run) ended
  have records := PredictionService.records (reach.trans run) id
  have pastOf : (fleet.processes id).past = past := by rw [ended]; rfl
  rw [pastOf] at records
  constructor
  · rintro answer rfl
    obtain ⟨parts, asked, delivered⟩ := served
    have ofModel := delivered.of asked
    have read : some parts.loaded ∈ modelsRead (fleet.processes id).past := by
      rw [pastOf, delivered.read]
      exact List.mem_singleton.mpr rfl
    obtain ⟨during, reached, progress, current, onward⟩ := PredictionService.was_current run idle read
    refine ⟨fun row member => ?_, fun event member => ?_, parts.loaded, during, ofModel, reached, progress, current, onward⟩
    · obtain ⟨saved, inserted⟩ := records.row row member
      rw [delivered.rows] at inserted
      split at inserted
      · obtain ⟨rfl, -⟩ := Prod.mk.inj (List.mem_singleton.mp inserted)
        rw [delivered.result]
        exact ⟨rfl, rfl, rfl, rfl, rfl, rfl, rfl, rfl, rfl⟩
      · cases inserted
    · obtain ⟨predictedAt, rfl⟩ := delivered.events event (records.event event member)
      rw [delivered.result]
      exact ⟨rfl, rfl, rfl, rfl, rfl, rfl, rfl, rfl, rfl⟩
  · rintro loaded rfl
    have read : none ∈ modelsRead (fleet.processes id).past := by
      rw [pastOf, show modelsRead past = [none] from served]
      exact List.mem_singleton.mpr rfl
    obtain ⟨during, reached, -, missing, -⟩ := PredictionService.was_current run idle read
    have present := PredictionService.stays_loaded reached loaded
    rw [missing] at present
    cases present

def servedModel : LoadedModel where
  predictProba _ := some 0x3FE8000000000000
  metadata := ⟨"higgs_decision_tree", "champion", "1", some "run-1", none, none, none, none, ⟨0, some 0⟩⟩

def wholeService : PredictionService := ⟨"higgs_decision_tree", "champion", true, true, true⟩

def zeroFeatures : Features := higgsFeatureNames.map fun name => (name, 0)

theorem servedModel_proba : servedModel.proba zeroFeatures = some 0x3FE8000000000000 := by decide +kernel

/-- The first refresh. -/
theorem first_model_loaded : ∃ past,
    Reach (Guarded (ServerStep wholeService) fun _ _ => True) .initial
      ⟨{ current := some servedModel },
        Function.update (fun _ => .idle) 0 (.ended .refresh past (some (.ok (.refreshed none (some "1")))))⟩ := by
  have initial : Reach (Guarded (ServerStep wholeService) fun _ _ => True) .initial
      ⟨{}, Function.update (fun _ => .idle) 0 .idle⟩ := by
    rw [Function.update_eq_self_iff.mpr rfl]
    exact .refl
  have started := reach_start initial .refresh trivial
  have locked := reach_call started rfl () (.acquireLock rfl) trivial
  have read := reach_call locked rfl none .readCurrent trivial
  have loaded := reach_call read rfl (Except.ok servedModel : Except Unit LoadedModel) (.load _) trivial
  have again := reach_call loaded rfl none .readCurrent trivial
  have written := reach_call again rfl () .writeCurrent trivial
  have released := reach_call written rfl () .releaseLock trivial
  exact ⟨_, reach_return released rfl trivial⟩

/-- What the first request is made of. -/
def firstParts : PredictionParts where
  loaded := servedModel
  features := zeroFeatures
  entityId := none
  source := "raw"
  traceId := "trace"
  proba := 0x3FE8000000000000
  latencyMs := ((0 : Python.Double).sub 0).mul 0x408F400000000000
  predictionId := "prediction"

/-- The first request, as far as its insert. -/
theorem first_request_computed : ∃ (start : ServerFleet) (past : List (Program.Exchange ServiceReply)),
    Reach (ServerStep wholeService) .initial start ∧ (∀ id, id ≠ 0 → start.processes id = .idle) ∧
      start.shared = { current := some servedModel } ∧
      Reach (Guarded (ServerStep wholeService) fun _ _ => True) start ⟨start.shared, Function.update start.processes 1
        (.running (.predictRaw zeroFeatures none "trace") past
          ((deliver wholeService firstParts).bind fun result => .pure (.prediction result)))⟩ := by
  obtain ⟨past, loaded⟩ := first_model_loaded
  let start : ServerFleet := ⟨{ current := some servedModel },
    Function.update (fun _ => .idle) 0 (.ended .refresh past (some (.ok (.refreshed none (some "1")))))⟩
  have waits : ∀ id, id ≠ 0 → start.processes id = .idle := by
    intro id different
    simp only [start, Function.update_of_ne different]
  have here : Reach (Guarded (ServerStep wholeService) fun _ _ => True) start
      ⟨start.shared, Function.update start.processes 1 .idle⟩ := by
    have unchanged : Function.update start.processes 1 .idle = start.processes :=
      Function.update_eq_self 1 start.processes
    rw [unchanged]
  have started := reach_start here (.predictRaw zeroFeatures none "trace") trivial
  have timed := reach_call started rfl (0 : Python.Double) (.perfCounter _) trivial
  have read := reach_call timed rfl (some servedModel) .readCurrent trivial
  have computes : ((predictLoaded wholeService servedModel zeroFeatures none "raw" "trace" 0).bind
        fun result => .pure (.prediction result) : ServiceProgram ServiceResult) =
      (complete wholeService servedModel zeroFeatures none "raw" "trace" 0 0x3FE8000000000000).bind
        fun result => .pure (.prediction result) := by
    rw [predictLoaded, servedModel_proba]
  have answered := reach_call read computes (0 : Python.Double) (.perfCounter _) trivial
  have named := reach_call answered rfl "prediction" (.uuid4 _) trivial
  exact ⟨start, _, loaded.forget_guard, waits, rfl, named⟩

def nextModel : LoadedModel where
  predictProba _ := some 0x3FD0000000000000
  metadata := ⟨"higgs_decision_tree", "champion", "2", some "run-2", none, none, none, none, ⟨0, some 0⟩⟩

/-- The first request, answered with the model that it read although another
one is loaded before its row is inserted. -/
theorem swapped_request_served : ∃ (start fleet : ServerFleet) (past : List (Program.Exchange ServiceReply))
    (answer : PredictionResult), Reach (ServerStep wholeService) .initial start ∧ start.processes 1 = .idle ∧
      Reach (ServerStep wholeService) start fleet ∧
      fleet.processes 1 = .ended (.predictRaw zeroFeatures none "trace") past (some (.ok (.prediction answer))) ∧
      answer.model = servedModel.metadata ∧ fleet.shared.current = some nextModel ∧
      fleet.shared.predictions.length = 1 ∧ fleet.shared.handed.length = 1 := by
  obtain ⟨start, past, reach, waits, shared, named⟩ := first_request_computed
  have other := Fleet.reach_other named (by decide : 2 ≠ 1)
  rw [waits 2 (by decide), shared] at other
  have started := reach_start other .refresh trivial
  have locked := reach_call started rfl () (.acquireLock rfl) trivial
  have read := reach_call locked rfl (some servedModel) .readCurrent trivial
  have loaded := reach_call read rfl (Except.ok nextModel : Except Unit LoadedModel) (.load _) trivial
  have again := reach_call loaded rfl (some servedModel) .readCurrent trivial
  have written := reach_call again rfl () .writeCurrent trivial
  have back := Fleet.reach_other written (by decide : 1 ≠ 2)
  rw [Function.update_self] at back
  have inserted := reach_call back rfl (Except.ok () : Except Unit Unit) (.inserted _) trivial
  have stamped := reach_call inserted rfl (⟨0, some 0⟩ : Datetime) (.utcNow _) trivial
  have handed := reach_call stamped rfl (Except.ok () : Except Unit Unit) (.publish _) trivial
  have returned := reach_return handed rfl trivial
  exact ⟨start, _, _, _, reach, waits 1 (by decide), returned.forget_guard, rfl, rfl, rfl, rfl, rfl⟩

theorem PredictionService.swapped_request_one_model : ∃ fleet past answer,
    Reach (ServerStep wholeService) .initial fleet ∧
      fleet.processes 1 = .ended (.predictRaw zeroFeatures none "trace") past (some (.ok (.prediction answer))) ∧
      answer.model = servedModel.metadata ∧ fleet.shared.current = some nextModel ∧
      fleet.shared.predictions.length = 1 ∧ (∀ row, (1, row) ∈ fleet.shared.predictions → row.Agrees answer) ∧
      fleet.shared.handed.length = 1 ∧ ∀ event, (1, event) ∈ fleet.shared.handed → event.Agrees answer := by
  obtain ⟨start, fleet, past, answer, reach, idle, run, ended, model, current, rows, events⟩ := swapped_request_served
  obtain ⟨row, event, -⟩ := (one_model reach idle run ended).1 answer rfl
  exact ⟨_, past, answer, reach.trans run, ended, model, current, rows, row, events, event⟩

end Amel
