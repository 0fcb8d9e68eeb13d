import Amel.Training.Audit
import Amel.Training.Gate

namespace Amel

open Transition (Reach Guarded)

/-- The registry has answered so on the metrics of a version. -/
def Measured (version : String) (metrics : Metrics) (past : List (Program.Exchange PromoteReply)) : Prop :=
  ∃ runId, ⟨.getModelVersion .candidate version, (Except.ok (some runId) : Except CallError (Option String))⟩ ∈ past ∧
    ⟨.getRun .candidate runId, (Except.ok metrics : Except CallError Metrics)⟩ ∈ past

/-- The metrics that the registry gave of a champion. -/
def championReads (past : List (Program.Exchange PromoteReply)) : List Metrics :=
  past.filterMap fun
    | ⟨.getRun .champion _, reply⟩ => (reply : Except CallError Metrics).toOption
    | _ => none

/-- Why a call may put the version in the champion's place: the operator
forces it, or the metrics that the registry gave of it meet the floors and do
not regress from those it gave of the champion. -/
def Passed (cfg : TrainingConfig) (request : PromoteRequest) (version : String)
    (past : List (Program.Exchange PromoteReply)) : Prop :=
  request.force = true ∨ ∃ metrics, Measured version metrics past ∧
    (PromotionCriteria.fromConfig cfg).FloorsMet metrics ∧
    ∀ champion ∈ championReads past, (PromotionCriteria.fromConfig cfg).Within metrics champion

/-- The alias that is written is the champion's, for a version that passed. -/
def GateRule (cfg : TrainingConfig) (request : PromoteRequest) (past : List (Program.Exchange PromoteReply)) :
    PromoteCall → Prop
  | .setRegisteredModelAlias name version => name = cfg.championAlias ∧ Passed cfg request version past
  | _ => True

section Gate

variable {past later : List (Program.Exchange PromoteReply)} {cfg : TrainingConfig} {request : PromoteRequest}

theorem Measured.since {version : String} {metrics : Metrics} (measured : Measured version metrics past)
    (since : past <+: later) : Measured version metrics later := by
  obtain ⟨runId, named, found⟩ := measured
  exact ⟨runId, since.subset named, since.subset found⟩

theorem championReads_snoc (exchange : Program.Exchange PromoteReply) :
    championReads (past ++ [exchange]) = championReads past ++ championReads [exchange] :=
  List.filterMap_append ..

/-- An exchange that is no answer on the metrics of a champion. -/
theorem championReads_pass (exchange : Program.Exchange PromoteReply) (before : championReads past = [])
    (other : championReads [exchange] = []) : championReads (past ++ [exchange]) = [] := by
  rw [championReads_snoc, before, other, List.append_nil]

theorem candidateVersion_reads (version : Option String) (unread : championReads past = []) :
    (candidateVersion cfg version).Obeys (GateRule cfg request) (fun now _ => championReads now = []) past := by
  cases version with
  | some version => exact unread
  | none => exact ⟨trivial, fun reply => ofReply_obeys reply fun _ => championReads_pass _ unread rfl⟩

/-- What is taken for the metrics of the candidate the registry gave of it,
unless there are none. -/
theorem metricsForVersion_measures (version : String) (unread : championReads past = []) :
    (metricsForVersion .candidate version).Obeys (GateRule cfg request)
      (fun now result => championReads now = [] ∧
        ∀ read, result = .ok read → read.2 = [] ∨ Measured version read.2 now) past := by
  refine ⟨trivial, fun (reply : Except CallError (Option String)) => ?_⟩
  have named : championReads (past ++ [⟨.getModelVersion .candidate version, reply⟩]) = [] :=
    championReads_pass _ unread rfl
  cases reply with
  | error error => exact ⟨named, fun read impossible => by cases impossible⟩
  | ok runId =>
    cases runId with
    | none =>
      refine ⟨named, fun read same => ?_⟩
      cases same
      exact Or.inl rfl
    | some runId =>
      refine ⟨trivial, fun (reply : Except CallError Metrics) => ?_⟩
      have measured := championReads_pass ⟨.getRun .candidate runId, reply⟩ named rfl
      cases reply with
      | error error => exact ⟨measured, fun read impossible => by cases impossible⟩
      | ok metrics =>
        refine ⟨measured, fun read same => Or.inr ?_⟩
        cases same
        exact ⟨runId, List.mem_append_left _ (List.mem_append_right _ (List.mem_singleton.mpr rfl)),
          List.mem_append_right _ (List.mem_singleton.mpr rfl)⟩

/-- What is taken for the metrics of the champion is all that the registry
gave of one. -/
theorem currentChampion_reads (unread : championReads past = []) :
    (currentChampion cfg).Obeys (GateRule cfg request)
      (fun now result => ∀ read, result = .ok read → ∀ champion ∈ championReads now, read.2 = some champion) past := by
  have none_read {now : List (Program.Exchange PromoteReply)} (none : championReads now = [])
      (result : Except CallError (Option String × Option Metrics)) (read : Option String × Option Metrics)
      (_ : result = .ok read) : ∀ champion ∈ championReads now, read.2 = some champion := by
    rw [none]
    exact List.forall_mem_nil _
  refine ⟨trivial, fun (reply : Except CallError String) => ?_⟩
  have asked := championReads_pass ⟨.getModelVersionByAlias .champion cfg.championAlias, reply⟩ unread rfl
  cases reply with
  | error error =>
    cases error with
    | mlflowException => exact none_read asked _
    | other => exact none_read asked _
  | ok previous =>
    refine ⟨trivial, fun (reply : Except CallError (Option String)) => ?_⟩
    have named := championReads_pass ⟨.getModelVersion .champion previous, reply⟩ asked rfl
    cases reply with
    | error error =>
      cases error with
      | mlflowException => exact none_read named _
      | other => exact none_read named _
    | ok runId =>
      cases runId with
      | none => exact none_read named _
      | some runId =>
        refine ⟨trivial, fun (reply : Except CallError Metrics) => ?_⟩
        cases reply with
        | error error =>
          have unmeasured := championReads_pass
            ⟨.getRun .champion runId, (Except.error error : Except CallError Metrics)⟩ named rfl
          cases error with
          | mlflowException => exact none_read unmeasured _
          | other => exact none_read unmeasured _
        | ok metrics =>
          intro read same champion member
          cases same
          rw [championReads_snoc, named] at member
          rw [List.mem_singleton.mp member]

/-- A call that does not write the alias. -/
def KeepsAlias : PromoteCall → Prop
  | .setRegisteredModelAlias _ _ => False
  | _ => True

theorem ofReply_keeps {α : Type} (reply : Except CallError α) : (PromoteProgram.ofReply reply).Uses KeepsAlias := by
  cases reply <;> trivial

theorem recordPromotion_keeps (version : String) (runId previous : Option String) (decision : PromotionDecision) :
    (recordPromotion cfg request version runId previous decision).Uses KeepsAlias := by
  have tag (version key value : String) : (setModelVersionTag version key value).Uses KeepsAlias :=
    ⟨trivial, fun reply => ofReply_keeps reply⟩
  refine (tag ..).bind fun _ => (tag ..).bind fun _ => Program.Uses.bind ?_ fun _ => Program.Uses.bind ?_ fun _ => trivial
  · unfold tagSuperseded
    split
    · split
      · exact tag ..
      · trivial
    · trivial
  · exact ⟨trivial, fun reply => ofReply_keeps reply⟩

/-- A call of `promote` writes the champion's alias only for a version that
passed. -/
theorem promote_gated : (promote cfg request).Obeys (GateRule cfg request) (fun _ _ => True) [] := by
  have names : (candidateVersion cfg request.version).Obeys (GateRule cfg request)
      (fun now _ => championReads now = []) [] :=
    candidateVersion_reads request.version rfl
  refine names.bind (fun _ _ _ => trivial) fun _ version unread => ?_
  refine (metricsForVersion_measures version unread).bind (fun _ _ _ => trivial) fun before read measures => ?_
  obtain ⟨unread, measured⟩ := measures
  refine (currentChampion_reads unread).since.bind (fun _ _ _ => trivial) fun now champion reads => ?_
  obtain ⟨since, reads⟩ := reads
  dsimp only
  split
  · trivial
  · rename_i opened
    have passed : Passed cfg request version now := by
      by_cases forced : request.force = true
      · exact Or.inl forced
      · have approved : (evaluatePromotion read.2 champion.2 (.fromConfig cfg)).approved = true := by
          by_contra refused
          simp [forced, refused] at opened
        obtain ⟨floors, within⟩ := evaluatePromotion_approved approved
        rcases measured read rfl with none | measured
        · obtain ⟨acc, auc, impossible, -⟩ := floors
          rw [none] at impossible
          cases impossible
        · exact Or.inr ⟨read.2, measured.since since, floors, fun metrics member =>
            within metrics (reads champion rfl _ member)⟩
    refine ⟨⟨rfl, passed⟩, fun reply => ?_⟩
    refine Program.Uses.obeys (Program.Uses.bind (ofReply_keeps reply) fun _ =>
      recordPromotion_keeps ..) fun past request keeps => ?_
    cases request with
    | setRegisteredModelAlias => exact keeps.elim
    | _ => trivial

end Gate

abbrev PromoteThread (model champion : String) :=
  Thread (PromoteCallOn model champion) PromoteCall PromoteReply CallError PromotionDecision

/-- The call asked for the champion's alias to name the version, which had
passed. -/
def Clears {model champion : String} (version : String) : PromoteThread model champion → Prop
  | .idle => False
  | .running call past _ | .ended call past _ => ∃ before reply,
    before ++ [⟨.setRegisteredModelAlias champion version, reply⟩] <+: past ∧ Passed call.cfg call.request version before

/-- Some call cleared the version. -/
def PromotionFleet.Promoted {model champion : String} (fleet : PromotionFleet model champion) (version : String) : Prop :=
  ∃ id, Clears version (fleet.processes id)

section Champion

variable {model champion version : String} {id : Nat} {s after : PromotionWorld}
  {thread next : PromoteThread model champion} {action : ThreadAction (PromoteCallOn model champion) PromoteReply}
  {fleet onward : PromotionFleet model champion}

theorem Clears.act (clears : Clears version thread) (taken : (promotions model champion).Act id s thread action after next) :
    Clears version next := by
  cases taken with
  | start => exact clears.elim
  | call reply =>
    obtain ⟨before, answer, since, passed⟩ := clears
    exact ⟨before, answer, since.trans (List.prefix_append ..), passed⟩
  | «return» | raise | crash => exact clears

/-- What was cleared once stays so. -/
theorem PromotionFleet.Promoted.step {action : PromotionAction model champion} (promoted : fleet.Promoted version)
    (taken : PromotionStep model champion fleet action onward) : onward.Promoted version := by
  obtain ⟨id, clears⟩ := promoted
  cases taken with
  | environment => exact ⟨id, clears⟩
  | @process actor _ _ _ acted =>
    refine ⟨id, ?_⟩
    by_cases same : id = actor
    · subst same
      simp only [Function.update_self]
      exact clears.act acted
    · simp only [Function.update_of_ne same]
      exact clears

/-- The moves of a call are of versions that it cleared. -/
def ClearsMoves (id : Nat) (s : PromotionWorld) (thread : PromoteThread model champion) : Prop :=
  thread.Follows (promotions model champion).body ∧ ∀ move ∈ s.moves, move.call = id → Clears move.version thread

/-- The champion is one of the versions that the alias was moved to. -/
def PromotionWorld.Moved (champion : String) (s : PromotionWorld) : Prop :=
  ∀ version, s.registry.aliases champion = some version → ∃ move ∈ s.moves, move.version = version

theorem PromotionWorld.Performs.moved {request : PromoteCall} {reply : PromoteReply request}
    (performed : PromotionWorld.Performs id s request reply after) (moved : s.Moved champion)
    (named : ∀ name version, request = .setRegisteredModelAlias name version → name = champion) :
    after.Moved champion := by
  rcases performed.effect with rfl | ⟨name, version, rfl, rfl⟩ | ⟨row, rfl, rfl⟩
  · exact moved
  · obtain rfl := named name version rfl
    intro current found
    have same : Function.update s.registry.aliases name (some version) name = some current := found
    rw [Function.update_self] at same
    cases same
    exact ⟨_, List.mem_append_right _ (List.mem_singleton.mpr rfl), rfl⟩
  · exact moved

/-- A call adds a move only as it asks for the alias to be written. -/
theorem PromotionWorld.Performs.newMove {request : PromoteCall} {reply : PromoteReply request}
    (performed : PromotionWorld.Performs id s request reply after) {move : AliasMove} (member : move ∈ after.moves) :
    move ∈ s.moves ∨ move.call = id ∧ ∃ name, request = .setRegisteredModelAlias name move.version := by
  rcases performed.effect with rfl | ⟨name, version, rfl, rfl⟩ | ⟨row, rfl, rfl⟩
  · exact Or.inl member
  · rcases List.mem_append.mp member with old | new
    · exact Or.inl old
    · obtain rfl := List.mem_singleton.mp new
      exact Or.inr ⟨rfl, name, rfl⟩
  · exact Or.inl member

theorem PromotionFleet.cleared {registry : ModelRegistry}
    (reach : Reach (PromotionStep model champion) (.initial model champion registry) fleet) :
    fleet.shared.Moved champion ∧ ∀ id, ClearsMoves id fleet.shared (fleet.processes id) := by
  refine Fleet.invariant (PromotionWorld.Moved champion) ClearsMoves reach.guardTrivially
    ⟨fun version found => ?_, fun id => ⟨trivial, List.forall_mem_nil _⟩⟩ ?_ ?_
  · have none : Function.update registry.aliases champion none champion = some version := found
    rw [Function.update_self] at none
    cases none
  · intro before event after _ happened moved each
    cases happened with
    | change same => exact ⟨fun version found => moved version (same ▸ found), each⟩
  · intro before id action after next _ taken moved each
    have follows := taken.follows (each id).1
    obtain ⟨runs, own⟩ := each id
    generalize before.processes id = thread at taken runs own
    cases taken with
    | start call =>
      exact ⟨moved, ⟨follows, fun move member same => (own move member same).elim⟩, fun other _ => each other⟩
    | @call call past ask resume after reply performed =>
      obtain ⟨rule, -⟩ := Program.Runs.obeys runs promote_gated
      have named (name version : String) (asks : ask = .setRegisteredModelAlias name version) : name = champion := by
        subst asks
        exact rule.1.trans call.sameAlias
      refine ⟨performed.moved moved named, ⟨follows, fun move member same => ?_⟩, fun other different =>
        ⟨(each other).1, fun move member same => ?_⟩⟩
      · rcases performed.newMove member with old | ⟨-, name, asks⟩
        · exact (own move old same).act (.call reply performed)
        · obtain rfl := named name move.version asks
          subst asks
          exact ⟨past, reply, List.prefix_rfl, rule.2⟩
      · rcases performed.newMove member with old | ⟨mine, -⟩
        · exact (each other).2 move old same
        · exact absurd (same.symm.trans mine) different
    | «return» | raise | crash =>
      exact ⟨moved, ⟨follows, own⟩, fun other _ => each other⟩

/-- Whoever is champion has been cleared. -/
theorem PromotionFleet.champion_promoted {registry : ModelRegistry}
    (reach : Reach (PromotionStep model champion) (.initial model champion registry) fleet)
    (named : fleet.shared.registry.aliases champion = some version) : fleet.Promoted version := by
  obtain ⟨moved, each⟩ := PromotionFleet.cleared reach
  obtain ⟨move, member, rfl⟩ := moved version named
  exact ⟨move.call, (each move.call).2 move member rfl⟩

end Champion

end Amel
