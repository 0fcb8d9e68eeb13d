import Amel.Library.Threads
import Amel.Training.Promote

namespace Amel

open Transition (Reach Guarded)

/-- What the registry holds about one model: which version an alias names,
the run of a version, and the metrics of a run. -/
structure ModelRegistry where
  aliases : String → Option String := fun _ => none
  runIds : String → Option (Option String) := fun _ => none
  runs : String → Option Metrics := fun _ => none

/-- A write of the champion alias, for the record: the call that made it and
the version that was champion before. -/
structure AliasMove where
  call : Nat
  version : String
  displaced : Option String
  deriving DecidableEq, Repr

/-- A row of `ml.model_promotions` and the call that inserted it. -/
structure AuditEntry where
  call : Nat
  row : ModelPromotion
  deriving DecidableEq, Repr

/-- The registry and the audit table. `unaudited` are the moves whose calls
have neither inserted their row nor ended. -/
structure PromotionWorld where
  registry : ModelRegistry := {}
  promotions : List AuditEntry := []
  moves : List AliasMove := []
  unaudited : List AliasMove := []

/-- A call of `promote` for one registered model and its champion alias. -/
structure PromoteCallOn (model champion : String) where
  cfg : TrainingConfig
  request : PromoteRequest
  sameModel : cfg.registeredModelName = model
  sameAlias : cfg.championAlias = champion

namespace PromotionWorld

def moveAlias (s : PromotionWorld) (id : Nat) (name version : String) : PromotionWorld :=
  { s with
    registry := { s.registry with aliases := Function.update s.registry.aliases name (some version) }
    moves := s.moves ++ [⟨id, version, s.registry.aliases name⟩]
    unaudited := s.unaudited ++ [⟨id, version, s.registry.aliases name⟩] }

/-- A call is over, or has inserted its row. -/
def settle (id : Nat) (s : PromotionWorld) : PromotionWorld :=
  { s with unaudited := s.unaudited.filter (·.call ≠ id) }

def insert (s : PromotionWorld) (id : Nat) (row : ModelPromotion) : PromotionWorld :=
  settle id { s with promotions := s.promotions ++ [⟨id, row⟩] }

/-- A read returns what there is or raises anything. A write takes effect and
returns, takes effect and raises, or only raises. -/
inductive Performs (id : Nat) :
    PromotionWorld → (request : PromoteCall) → PromoteReply request → PromotionWorld → Prop
  | getModelVersionByAlias {s side name} {reply : Except CallError String} :
      (∀ version, reply = .ok version → s.registry.aliases name = some version) →
      Performs id s (.getModelVersionByAlias side name) reply s
  | getModelVersion {s side version} {reply : Except CallError (Option String)} :
      (∀ runId, reply = .ok runId → s.registry.runIds version = some runId) →
      Performs id s (.getModelVersion side version) reply s
  | getRun {s side runId} {reply : Except CallError Metrics} :
      (∀ metrics, reply = .ok metrics → s.registry.runs runId = some metrics) →
      Performs id s (.getRun side runId) reply s
  | aliasSet {s name version} (reply : Except CallError Unit) :
      Performs id s (.setRegisteredModelAlias name version) reply (s.moveAlias id name version)
  | aliasNotSet {s name version} (error : CallError) :
      Performs id s (.setRegisteredModelAlias name version) (Except.error error : Except CallError Unit) s
  | tag {s version key value} (reply : Except CallError Unit) :
      Performs id s (.setModelVersionTag version key value) reply s
  | inserted {s row} (reply : Except CallError Unit) : Performs id s (.insertPromotion row) reply (s.insert id row)
  | notInserted {s row} (error : CallError) :
      Performs id s (.insertPromotion row) (Except.error error : Except CallError Unit) s

end PromotionWorld

/-- Training registers versions and moves the candidate alias. -/
inductive RegistryEvent
  | change (registry : ModelRegistry)

/-- Nothing but `promote` moves the champion alias. -/
inductive RegistryEvent.Happens (champion : String) : PromotionWorld → RegistryEvent → PromotionWorld → Prop
  | change {s registry} : registry.aliases champion = s.registry.aliases champion →
      Happens champion s (.change registry) { s with registry }

/-- Any number of calls of `promote`, by number. -/
def promotions (model champion : String) : Workload Nat PromotionWorld (PromoteCallOn model champion) PromoteCall
    PromoteReply CallError PromotionDecision where
  body call := promote call.cfg call.request
  perform := PromotionWorld.Performs
  conclude := PromotionWorld.settle

abbrev PromotionFleet (model champion : String) := Fleet Nat PromotionWorld
  (Thread (PromoteCallOn model champion) PromoteCall PromoteReply CallError PromotionDecision)

abbrev PromotionAction (model champion : String) :=
  RegistryEvent ⊕ Nat × ThreadAction (PromoteCallOn model champion) PromoteReply

abbrev PromotionStep (model champion : String) :
    PromotionFleet model champion → PromotionAction model champion → PromotionFleet model champion → Prop :=
  Fleet.Step (RegistryEvent.Happens champion) (promotions model champion).Act

/-- No promotion was ever made. -/
def PromotionFleet.initial (model champion : String) (registry : ModelRegistry) : PromotionFleet model champion :=
  ⟨{ registry := { registry with aliases := Function.update registry.aliases champion none } }, fun _ => .idle⟩

end Amel
