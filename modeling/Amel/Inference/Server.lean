import Amel.Inference.Service
import Amel.Library.Threads

namespace Amel

open Transition (Reach)

/-- What a thread of the API is to do: answer a prediction request, or
refresh the model once, for a request or in the background. -/
inductive ServiceRequest
  | predictRaw (features : Features) (entityId : Option String) (traceId : String)
  | predictEntity (entityId traceId : String)
  | refresh

inductive ServiceResult
  | prediction (result : PredictionResult)
  | refreshed (previous current : Option String)
  deriving DecidableEq, Repr

def PredictionService.serve (service : PredictionService) : ServiceRequest → ServiceProgram ServiceResult
  | .predictRaw features entityId traceId =>
    (predictRaw service features entityId traceId).bind fun result => .pure (.prediction result)
  | .predictEntity entityId traceId =>
    (predictEntity service entityId traceId).bind fun result => .pure (.prediction result)
  | .refresh => (refresh service).bind fun (previous, current) => .pure (.refreshed previous current)

/-- The cached model and its lock, the committed rows of `ml.predictions` and
the events handed to the publisher, these two with the thread they are of. -/
structure Server where
  current : Option LoadedModel := none
  lock : Option Nat := none
  predictions : List (Nat × Prediction) := []
  handed : List (Nat × PredictionEvent) := []

/-- A thread that ends lets go of the lock. -/
def Server.letGo (id : Nat) (s : Server) : Server := if s.lock = some id then { s with lock := none } else s

/-- An insert takes effect and returns, takes effect and raises, or only
raises; a loader and a publisher do as they please. -/
inductive Server.Performs (id : Nat) : Server → (request : ServiceCall) → ServiceReply request → Server → Prop
  | perfCounter {s} (now : Python.Double) : Performs id s .perfCounter now s
  | uuid4 {s} (name : String) : Performs id s .uuid4 name s
  | utcNow {s} (now : Datetime) : Performs id s .utcNow now s
  | getFeatures {s entityId} (reply : Except Unit (Option Features)) : Performs id s (.getFeatures entityId) reply s
  | inserted {s row} (reply : Except Unit Unit) :
      Performs id s (.insertPrediction row) reply { s with predictions := s.predictions ++ [(id, row)] }
  | notInserted {s row} (error : Unit) :
      Performs id s (.insertPrediction row) (Except.error error : Except Unit Unit) s
  | publish {s event} (reply : Except Unit Unit) :
      Performs id s (.publish event) reply { s with handed := s.handed ++ [(id, event)] }
  | readCurrent {s} : Performs id s .readCurrent s.current s
  | writeCurrent {s loaded} : Performs id s (.writeCurrent loaded) () { s with current := some loaded }
  | acquireLock {s} : s.lock = none → Performs id s .acquireLock () { s with lock := some id }
  | releaseLock {s} : Performs id s .releaseLock () { s with lock := none }
  | load {s name «alias»} (reply : Except Unit LoadedModel) : Performs id s (.load name «alias») reply s

/-- Any number of threads, by number. -/
def serving (service : PredictionService) :
    Workload Nat Server ServiceRequest ServiceCall ServiceReply ServiceError ServiceResult where
  body := service.serve
  perform := Server.Performs
  conclude := Server.letGo

abbrev ServerFleet := Fleet Nat Server (Thread ServiceRequest ServiceCall ServiceReply ServiceError ServiceResult)

abbrev ServerAction := Empty ⊕ Nat × ThreadAction ServiceRequest ServiceReply

abbrev ServerStep (service : PredictionService) : ServerFleet → ServerAction → ServerFleet → Prop :=
  Fleet.Step (fun _ event _ => event.elim) (serving service).Act

/-- The process has just started. -/
def ServerFleet.initial : ServerFleet := ⟨{}, fun _ => .idle⟩

namespace Server.Performs

variable {id : Nat} {s after : Server} {request : ServiceCall} {reply : ServiceReply request}

/-- Rows and events stay, and a model once loaded is replaced only by another. -/
theorem grows (performed : Performs id s request reply after) :
    s.predictions <+: after.predictions ∧ (s.current.isSome = true → after.current.isSome = true) := by
  cases performed with
  | inserted => exact ⟨List.prefix_append .., fun loaded => loaded⟩
  | writeCurrent => exact ⟨List.prefix_rfl, fun _ => rfl⟩
  | _ => exact ⟨List.prefix_rfl, fun loaded => loaded⟩

end Server.Performs

end Amel
