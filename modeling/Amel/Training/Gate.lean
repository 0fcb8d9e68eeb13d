import Amel.Training.Registry

namespace Amel

open Python (Double)

/-- How each external call of one promotion turns out: what it raises, and
whether a write that raises has taken effect. -/
structure Outcomes where
  raises : PromoteCall → Option CallError
  lost : PromoteCall → Bool

/-- A read that does not fail returns what is there; there being nothing is
an MlflowException as well. -/
def readReply {α : Type} : Option CallError → Option α → Except CallError α
  | some error, _ => .error error
  | none, some value => .ok value
  | none, none => .error .mlflowException

def writeReply : Option CallError → Except CallError Unit
  | some error => .error error
  | none => .ok ()

theorem readReply_ok {α : Type} {raised : Option CallError} {found : Option α} {value : α}
    (returned : readReply raised found = .ok value) : found = some value := by
  cases raised <;> cases found <;> cases returned
  rfl

/-- The metrics that the registry holds for a version; one without a run has
none. -/
def ModelRegistry.metricsOf (registry : ModelRegistry) (version : String) : Option Metrics :=
  match registry.runIds version with
  | none => none
  | some none => some []
  | some (some runId) => registry.runs runId

namespace Outcomes

variable (outcomes : Outcomes)

/-- The write is made, whether or not it returns. -/
def takesEffect (request : PromoteCall) : Bool := (outcomes.raises request).isNone || outcomes.lost request

def answer (s : PromotionWorld) : (request : PromoteCall) → PromoteReply request × PromotionWorld
  | .getModelVersionByAlias side name =>
    (readReply (outcomes.raises (.getModelVersionByAlias side name)) (s.registry.aliases name), s)
  | .getModelVersion side version =>
    (readReply (outcomes.raises (.getModelVersion side version)) (s.registry.runIds version), s)
  | .getRun side runId => (readReply (outcomes.raises (.getRun side runId)) (s.registry.runs runId), s)
  | .setRegisteredModelAlias name version =>
    (writeReply (outcomes.raises (.setRegisteredModelAlias name version)),
      if outcomes.takesEffect (.setRegisteredModelAlias name version) then s.moveAlias 0 name version else s)
  | .setModelVersionTag version key value => (writeReply (outcomes.raises (.setModelVersionTag version key value)), s)
  | .insertPromotion row =>
    (writeReply (outcomes.raises (.insertPromotion row)),
      if outcomes.takesEffect (.insertPromotion row) then s.insert 0 row else s)

/-- Each of these runs is one of those that may happen. -/
theorem answer_performs (s : PromotionWorld) (request : PromoteCall) :
    PromotionWorld.Performs 0 s request (outcomes.answer s request).1 (outcomes.answer s request).2 := by
  have fails {request : PromoteCall} (unmade : outcomes.takesEffect request = false) :
      ∃ error, writeReply (outcomes.raises request) = .error error := by
    cases raised : outcomes.raises request with
    | none => simp [takesEffect, raised] at unmade
    | some error => exact ⟨error, rfl⟩
  cases request with
  | getModelVersionByAlias => exact .getModelVersionByAlias fun _ => readReply_ok
  | getModelVersion => exact .getModelVersion fun _ => readReply_ok
  | getRun => exact .getRun fun _ => readReply_ok
  | setModelVersionTag => exact .tag _
  | setRegisteredModelAlias name version =>
    cases effect : outcomes.takesEffect (.setRegisteredModelAlias name version) with
    | true => simp only [answer, effect, if_true]; exact .aliasSet _
    | false =>
      obtain ⟨error, raised⟩ := fails effect
      simp only [answer, effect, raised]
      exact .aliasNotSet error
  | insertPromotion row =>
    cases effect : outcomes.takesEffect (.insertPromotion row) with
    | true => simp only [answer, effect, if_true]; exact .inserted _
    | false =>
      obtain ⟨error, raised⟩ := fails effect
      simp only [answer, effect, raised]
      exact .notInserted error

/-- What reading the metrics of a version comes to. -/
def metricsRead (registry : ModelRegistry) (side : Side) (version : String) : Except CallError (Option String × Metrics) :=
  match readReply (outcomes.raises (.getModelVersion side version)) (registry.runIds version) with
  | .error error => .error error
  | .ok none => .ok (none, [])
  | .ok (some runId) =>
    match readReply (outcomes.raises (.getRun side runId)) (registry.runs runId) with
    | .error error => .error error
    | .ok metrics => .ok (some runId, metrics)

def candidateNamed (registry : ModelRegistry) (cfg : TrainingConfig) : Option String → Except CallError String
  | some version => .ok version
  | none => readReply (outcomes.raises (.getModelVersionByAlias .candidate cfg.candidateAlias))
      (registry.aliases cfg.candidateAlias)

/-- What reading the version to promote and its metrics comes to. -/
def candidateRead (registry : ModelRegistry) (cfg : TrainingConfig) (version : Option String) :
    Except CallError (String × Option String × Metrics) :=
  match outcomes.candidateNamed registry cfg version with
  | .error error => .error error
  | .ok version =>
    match outcomes.metricsRead registry .candidate version with
    | .error error => .error error
    | .ok read => .ok (version, read)

def championNamed (registry : ModelRegistry) (cfg : TrainingConfig) : Except CallError String :=
  readReply (outcomes.raises (.getModelVersionByAlias .champion cfg.championAlias)) (registry.aliases cfg.championAlias)

/-- What reading the champion and its metrics comes to. -/
def championRead (registry : ModelRegistry) (cfg : TrainingConfig) : Except CallError (String × Metrics) :=
  match outcomes.championNamed registry cfg with
  | .error error => .error error
  | .ok version =>
    match outcomes.metricsRead registry .champion version with
    | .error error => .error error
    | .ok read => .ok (version, read.2)

/-- What the gate gets to see of the champion. -/
def championTaken (registry : ModelRegistry) (cfg : TrainingConfig) : Except CallError (Option Metrics) :=
  match outcomes.championRead registry cfg with
  | .ok read => .ok (some read.2)
  | .error .mlflowException => .ok none
  | .error .other => .error .other

variable (s : PromotionWorld) (cfg : TrainingConfig)

theorem eval_metricsForVersion (side : Side) (version : String) :
    (metricsForVersion side version).eval outcomes.answer s = (outcomes.metricsRead s.registry side version, s) := by
  unfold metricsForVersion metricsRead
  rw [Program.eval_bind]
  simp only [getModelVersion, getRun, Program.eval, answer]
  cases readReply (outcomes.raises (.getModelVersion side version)) (s.registry.runIds version) with
  | error => rfl
  | ok runId =>
    cases runId with
    | none => rfl
    | some runId =>
      simp only [PromoteProgram.ofReply, Program.eval, Program.bind, answer]
      cases readReply (outcomes.raises (.getRun side runId)) (s.registry.runs runId) <;> rfl

theorem eval_candidateVersion (version : Option String) :
    (candidateVersion cfg version).eval outcomes.answer s = (outcomes.candidateNamed s.registry cfg version, s) := by
  cases version with
  | some version => rfl
  | none =>
    simp only [candidateVersion, candidateNamed, Program.eval, answer]
    cases readReply (outcomes.raises (.getModelVersionByAlias .candidate cfg.candidateAlias))
      (s.registry.aliases cfg.candidateAlias) <;> rfl

theorem eval_championMetrics (previous : String) :
    (championMetrics previous).eval outcomes.answer s =
      (match outcomes.metricsRead s.registry .champion previous with
        | .ok read => .ok (some previous, some read.2)
        | .error .mlflowException => .ok (some previous, none)
        | .error .other => .error .other, s) := by
  unfold championMetrics
  rw [Program.eval_rescue, Program.eval_bind, eval_metricsForVersion]
  rcases outcomes.metricsRead s.registry .champion previous with (_ | _) | _ <;> rfl

/-- Reading the champion changes nothing, and shows the gate what there is or,
after an MlflowException, no champion. -/
theorem eval_currentChampion :
    ∃ result, (currentChampion cfg).eval outcomes.answer s = (result, s) ∧
      result.map Prod.snd = outcomes.championTaken s.registry cfg := by
  simp only [currentChampion, championTaken, championRead, championNamed, Program.eval, answer]
  rcases readReply (outcomes.raises (.getModelVersionByAlias .champion cfg.championAlias))
    (s.registry.aliases cfg.championAlias) with (_ | _) | previous
  · exact ⟨_, rfl, rfl⟩
  · exact ⟨_, rfl, rfl⟩
  · refine ⟨_, outcomes.eval_championMetrics s previous, ?_⟩
    dsimp only
    rcases outcomes.metricsRead s.registry .champion previous with (_ | _) | _ <;> rfl

/-- What follows the write of the alias leaves the registry alone. -/
theorem eval_recordPromotion_registry (request : PromoteRequest) (version : String) (runId previous : Option String)
    (decision : PromotionDecision) :
    ((recordPromotion cfg request version runId previous decision).eval outcomes.answer s).2.registry = s.registry := by
  let records : PromoteCall → Prop
    | .setModelVersionTag .. | .insertPromotion _ => True
    | _ => False
  have replied {α : Type} (reply : Except CallError α) : (PromoteProgram.ofReply reply).Uses records := by
    cases reply <;> trivial
  have tagged (tag key value : String) : (setModelVersionTag tag key value).Uses records := ⟨trivial, replied⟩
  have superseded : (tagSuperseded version previous).Uses records := by
    unfold tagSuperseded
    split
    · split
      · exact tagged _ _ _
      · trivial
    · trivial
  have uses : (recordPromotion cfg request version runId previous decision).Uses records := by
    refine (tagged _ _ _).bind fun _ => (tagged _ _ _).bind fun _ => superseded.bind fun _ => ?_
    exact Program.Uses.bind ⟨trivial, replied⟩ fun _ => trivial
  refine uses.eval outcomes.answer (fun now => now.registry = s.registry) ?_ rfl
  intro now request recorded same
  cases request with
  | setModelVersionTag => exact same
  | insertPromotion row =>
    simp only [answer]
    split
    · exact same
    · exact same
  | _ => exact recorded.elim

/-- The state after a promotion. -/
def promoted (request : PromoteRequest) : PromotionWorld := ((promote cfg request).eval outcomes.answer s).2

/-- The promotion reads all it needs, its gate opens or it is forced, and its
write of the alias is made. -/
structure Moves (request : PromoteRequest) (version : String) (metrics : Metrics) (champion : Option Metrics) :
    Prop where
  reads : ∃ runId, outcomes.candidateRead s.registry cfg request.version = .ok (version, runId, metrics)
  sees : outcomes.championTaken s.registry cfg = .ok champion
  gate : ((evaluatePromotion metrics champion (.fromConfig cfg)).approved || request.force) = true
  written : outcomes.takesEffect (.setRegisteredModelAlias cfg.championAlias version) = true

/-- The write of the alias and all that follows. -/
theorem eval_setRegisteredModelAlias {α : Type} (version : String) (rest : PromoteProgram α)
    (records : ∀ now, (rest.eval outcomes.answer now).2.registry = now.registry) :
    (((setRegisteredModelAlias cfg.championAlias version).bind fun _ => rest).eval outcomes.answer s).2.registry =
      if outcomes.takesEffect (.setRegisteredModelAlias cfg.championAlias version)
      then (s.moveAlias 0 cfg.championAlias version).registry else s.registry := by
  rw [Program.eval_bind]
  simp only [setRegisteredModelAlias, Program.eval, answer]
  cases writeReply (outcomes.raises (.setRegisteredModelAlias cfg.championAlias version)) with
  | error =>
    simp only [PromoteProgram.ofReply, Program.eval]
    split <;> rfl
  | ok =>
    simp only [PromoteProgram.ofReply, Program.eval, records]
    split <;> rfl

/-- A promotion that makes the move puts its version in the champion's place,
and any other leaves the registry as it is. -/
theorem promoted_registry (request : PromoteRequest) :
    (∃ version metrics champion, outcomes.Moves s cfg request version metrics champion ∧
      (outcomes.promoted s cfg request).registry = (s.moveAlias 0 cfg.championAlias version).registry) ∨
    (¬∃ version metrics champion, outcomes.Moves s cfg request version metrics champion) ∧
      (outcomes.promoted s cfg request).registry = s.registry := by
  simp only [promoted, promote, Program.eval_bind, eval_candidateVersion]
  cases named : outcomes.candidateNamed s.registry cfg request.version with
  | error =>
    refine .inr ⟨fun ⟨_, _, _, moves⟩ => ?_, rfl⟩
    obtain ⟨_, read⟩ := moves.reads
    simp [candidateRead, named] at read
  | ok version =>
    simp only [eval_metricsForVersion]
    cases measured : outcomes.metricsRead s.registry .candidate version with
    | error =>
      refine .inr ⟨fun ⟨_, _, _, moves⟩ => ?_, rfl⟩
      obtain ⟨_, read⟩ := moves.reads
      simp [candidateRead, named, measured] at read
    | ok read =>
      obtain ⟨runId, metrics⟩ := read
      have candidate : outcomes.candidateRead s.registry cfg request.version = .ok (version, runId, metrics) := by
        simp only [candidateRead, named, measured]
      obtain ⟨result, evaluated, taken⟩ := outcomes.eval_currentChampion s cfg
      simp only [evaluated]
      cases result with
      | error =>
        refine .inr ⟨fun ⟨_, _, _, moves⟩ => ?_, rfl⟩
        exact nomatch taken.trans moves.sees
      | ok champion =>
        obtain ⟨previous, champMetrics⟩ := champion
        dsimp only
        have same {v m c} (moves : outcomes.Moves s cfg request v m c) : v = version ∧ m = metrics ∧ c = champMetrics := by
          obtain ⟨_, read⟩ := moves.reads
          cases candidate.symm.trans read
          cases taken.trans moves.sees
          exact ⟨rfl, rfl, rfl⟩
        split
        · rename_i rejected
          refine .inr ⟨fun ⟨_, _, _, moves⟩ => ?_, rfl⟩
          obtain ⟨rfl, rfl, rfl⟩ := same moves
          have gate := moves.gate
          grind
        · rename_i gate
          rw [eval_setRegisteredModelAlias _ _ _ _ _ fun now => eval_recordPromotion_registry ..]
          by_cases written : outcomes.takesEffect (.setRegisteredModelAlias cfg.championAlias version) = true
          · rw [if_pos written]
            exact .inl ⟨version, metrics, champMetrics, ⟨⟨runId, candidate⟩, taken.symm, by grind, written⟩, rfl⟩
          · rw [if_neg written]
            refine .inr ⟨fun ⟨_, _, _, moves⟩ => ?_, rfl⟩
            obtain ⟨rfl, rfl, rfl⟩ := same moves
            exact written moves.written

/-- What is read of a version is what the registry holds. -/
theorem metricsRead_ok {registry : ModelRegistry} {side : Side} {version : String} {read : Option String × Metrics}
    (returned : outcomes.metricsRead registry side version = .ok read) :
    registry.metricsOf version = some read.2 := by
  unfold metricsRead at returned
  split at returned
  · cases returned
  · rename_i found
    cases returned
    simp only [ModelRegistry.metricsOf, readReply_ok found]
  · rename_i runId found
    split at returned
    · cases returned
    · rename_i measured
      cases returned
      simp only [ModelRegistry.metricsOf, readReply_ok found, readReply_ok measured]

theorem candidateRead_ok {registry : ModelRegistry} {wanted : Option String}
    {read : String × Option String × Metrics} (returned : outcomes.candidateRead registry cfg wanted = .ok read) :
    registry.metricsOf read.1 = some read.2.2 := by
  unfold candidateRead at returned
  split at returned
  · cases returned
  · split at returned
    · cases returned
    · rename_i measured
      cases returned
      exact outcomes.metricsRead_ok measured

theorem championRead_ok {registry : ModelRegistry} {read : String × Metrics}
    (returned : outcomes.championRead registry cfg = .ok read) :
    registry.aliases cfg.championAlias = some read.1 ∧ registry.metricsOf read.1 = some read.2 := by
  unfold championRead at returned
  split at returned
  · cases returned
  · rename_i named
    split at returned
    · cases returned
    · rename_i measured
      cases returned
      exact ⟨readReply_ok named, outcomes.metricsRead_ok measured⟩

end Outcomes

/-- The metrics are there and neither is below its floor. -/
def PromotionCriteria.FloorsMet (criteria : PromotionCriteria) (metrics : Metrics) : Prop :=
  ∃ acc auc, metrics.lookup "test_accuracy" = some acc ∧ metrics.lookup "test_roc_auc" = some auc ∧
    acc.lt criteria.minTestAccuracy = false ∧ auc.lt criteria.minTestRocAuc = false

/-- The first metrics are not below the second by more than is tolerated. -/
def PromotionCriteria.Within (criteria : PromotionCriteria) (metrics champion : Metrics) : Prop :=
  ∀ acc champAcc, metrics.lookup "test_accuracy" = some acc → champion.lookup "test_accuracy" = some champAcc →
    acc.lt (champAcc.sub criteria.maxRegression) = false

theorem checkFloor_passed {metric : String} {value floor : Double} (passed : (checkFloor metric value floor).1 = true) :
    value.lt floor = false := by
  unfold checkFloor at passed
  split at passed
  · cases passed
  · rename_i above
    exact Bool.of_not_eq_true above

/-- What an approval says of the metrics that the gate saw. -/
theorem evaluatePromotion_approved {candidate : Metrics} {champion : Option Metrics} {criteria : PromotionCriteria}
    (approved : (evaluatePromotion candidate champion criteria).approved = true) :
    criteria.FloorsMet candidate ∧ ∀ metrics, champion = some metrics → criteria.Within candidate metrics := by
  unfold evaluatePromotion at approved
  split at approved
  · rename_i acc auc hasAcc hasAuc
    simp only [Bool.and_eq_true] at approved
    obtain ⟨⟨accuracy, rocAuc⟩, regression⟩ := approved
    refine ⟨⟨acc, auc, hasAcc, hasAuc, checkFloor_passed accuracy, checkFloor_passed rocAuc⟩, ?_⟩
    rintro metrics rfl acc' champAcc hasAcc' hasChampAcc
    cases hasAcc.symm.trans hasAcc'
    unfold checkRegression at regression
    simp only [hasChampAcc, Option.getD_some] at regression
    split at regression
    · cases regression
    · rename_i within
      exact Bool.of_not_eq_true within
  · cases approved

/-- A promotion that is not forced moves the champion alias only to a version
whose metrics meet the floors and do not regress from the champion's, and not
at all when a champion that exists cannot be read. -/
structure FailsClosed (cfg : TrainingConfig) (request : PromoteRequest) (outcomes : Outcomes) (s : PromotionWorld) :
    Prop where
  gated : ∀ version, request.force = false →
    (outcomes.promoted s cfg request).registry.aliases cfg.championAlias = some version →
    s.registry.aliases cfg.championAlias ≠ some version →
    ∃ metrics, s.registry.metricsOf version = some metrics ∧ (PromotionCriteria.fromConfig cfg).FloorsMet metrics ∧
      ∀ champion champMetrics, s.registry.aliases cfg.championAlias = some champion →
        s.registry.metricsOf champion = some champMetrics →
        (PromotionCriteria.fromConfig cfg).Within metrics champMetrics
  unread : ∀ champion error, request.force = false → s.registry.aliases cfg.championAlias = some champion →
    outcomes.championRead s.registry cfg = .error error →
    (outcomes.promoted s cfg request).registry.aliases cfg.championAlias = some champion

/-- There is a champion, reading it raises an MlflowException, and another
version is read, passes the gate as a first promotion and is written. -/
structure Bypassed (cfg : TrainingConfig) (request : PromoteRequest) (outcomes : Outcomes) (s : PromotionWorld) :
    Prop where
  unforced : request.force = false
  unread : outcomes.championRead s.registry cfg = .error .mlflowException
  displaced : ∃ champion version runId metrics, s.registry.aliases cfg.championAlias = some champion ∧
    outcomes.candidateRead s.registry cfg request.version = .ok (version, runId, metrics) ∧ version ≠ champion ∧
    (evaluatePromotion metrics none (.fromConfig cfg)).approved = true ∧
    outcomes.takesEffect (.setRegisteredModelAlias cfg.championAlias version) = true

section

variable {cfg : TrainingConfig} {request : PromoteRequest} {outcomes : Outcomes} {s : PromotionWorld}

/-- A promotion that moves the alias has read the champion, found none, or
bypassed the gate. -/
theorem Outcomes.Moves.champion_read {version champion : String} {metrics : Metrics} {champMetrics : Option Metrics}
    (moves : outcomes.Moves s cfg request version metrics champMetrics) (unforced : request.force = false)
    (present : s.registry.aliases cfg.championAlias = some champion) (displaced : version ≠ champion)
    (gated : ¬Bypassed cfg request outcomes s) :
    ∃ read, outcomes.championRead s.registry cfg = .ok read ∧ champMetrics = some read.2 := by
  obtain ⟨runId, reads⟩ := moves.reads
  have sees := moves.sees
  unfold Outcomes.championTaken at sees
  split at sees
  · rename_i read found
    cases sees
    exact ⟨read, found, rfl⟩
  · rename_i unread
    cases sees
    have approved := moves.gate
    rw [unforced, Bool.or_false] at approved
    exact absurd ⟨unforced, unread, champion, version, runId, metrics, present, reads, displaced, approved,
      moves.written⟩ gated
  · cases sees

theorem moved_alias_self (version : String) :
    (s.moveAlias 0 cfg.championAlias version).registry.aliases cfg.championAlias = some version :=
  Function.update_self ..

/-- A promotion fails closed if and only if it does not take a champion that
it could not read for none. -/
theorem promotion_fails_closed (cfg : TrainingConfig) (request : PromoteRequest) (outcomes : Outcomes)
    (s : PromotionWorld) : FailsClosed cfg request outcomes s ↔ ¬Bypassed cfg request outcomes s := by
  constructor
  · rintro closed ⟨unforced, unread, champion, version, runId, metrics, present, reads, displaced, approved, written⟩
    have stays := closed.unread champion .mlflowException unforced present unread
    have sees : outcomes.championTaken s.registry cfg = .ok none := by simp only [Outcomes.championTaken, unread]
    have moves : outcomes.Moves s cfg request version metrics none :=
      ⟨⟨runId, reads⟩, sees, by rw [approved, Bool.true_or], written⟩
    rcases outcomes.promoted_registry s cfg request with ⟨v, m, c, moved, after⟩ | ⟨unmoved, -⟩
    · obtain ⟨_, readsThere⟩ := moved.reads
      cases reads.symm.trans readsThere
      rw [after, moved_alias_self] at stays
      exact displaced (Option.some.inj stays)
    · exact unmoved ⟨version, metrics, none, moves⟩
  · intro gated
    rcases outcomes.promoted_registry s cfg request with ⟨version, metrics, champMetrics, moves, after⟩ | ⟨-, after⟩
    · obtain ⟨runId, reads⟩ := moves.reads
      constructor
      · intro v unforced names changed
        rw [after, moved_alias_self] at names
        cases names
        have approved := moves.gate
        rw [unforced, Bool.or_false] at approved
        obtain ⟨floors, within⟩ := evaluatePromotion_approved approved
        refine ⟨metrics, outcomes.candidateRead_ok cfg reads, floors, fun champion known present measured => ?_⟩
        have displaced : version ≠ champion := fun same => changed (same ▸ present)
        obtain ⟨read, found, rfl⟩ := moves.champion_read unforced present displaced gated
        obtain ⟨named, held⟩ := outcomes.championRead_ok cfg found
        cases named.symm.trans present
        cases held.symm.trans measured
        exact within _ rfl
      · intro champion error unforced present unread
        rw [after, moved_alias_self]
        by_contra changed
        have displaced : version ≠ champion := fun same => changed (congrArg some same)
        obtain ⟨read, found, -⟩ := moves.champion_read unforced present displaced gated
        cases unread.symm.trans found
    · constructor
      · intro v _ names changed
        rw [after] at names
        exact absurd names changed
      · intro champion _ _ present _
        rw [after]
        exact present

end

/-- Version 1 is champion with accuracy 0.75, version 2 the candidate with
0.70, and the one read of the champion alias fails for a moment. -/
def regressedCandidate : PromotionWorld where
  registry := {
    aliases := fun name => if name = "champion" then some "1" else if name = "candidate" then some "2" else none
    runIds := fun version => some (some version)
    runs := fun runId =>
      if runId = "1" then some [("test_accuracy", 0x3FE8000000000000), ("test_roc_auc", 0x3FE999999999999A)]
      else some [("test_accuracy", 0x3FE6666666666666), ("test_roc_auc", 0x3FE999999999999A)] }

def aliasOutage : Outcomes where
  raises request := if request = .getModelVersionByAlias .champion "champion" then some .mlflowException else none
  lost _ := false

/-- The worse version takes the place of the champion that was not read. -/
theorem unread_champion_displaced :
    ¬FailsClosed {} ⟨none, "operator", false⟩ aliasOutage regressedCandidate := by
  intro closed
  have stays := closed.unread "1" .mlflowException rfl rfl rfl
  have moved : (aliasOutage.promoted regressedCandidate {} ⟨none, "operator", false⟩).registry.aliases "champion" =
      some "2" := by
    decide +kernel
  rw [moved] at stays
  exact absurd stays (by decide)

end Amel
