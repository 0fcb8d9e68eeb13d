import Amel.Inference.Loader
import Amel.Inference.PredictionOrigin
import Amel.Training.Gatekeeper

namespace Amel

open Transition (Reach Guarded)

/-- A call of the loader in progress. -/
structure LoadRun where
  name : String
  «alias» : String
  past : List (Program.Exchange LoaderReply)
  rest : LoaderProgram LoadedModel

/-- The model that is served: where its registry is, the estimators that it
keeps, which no one changes, and the settings of every process that serves
the model. -/
structure Serving where
  trackingUri : String
  service : PredictionService
  settings : Nat → ApiSettings
  artifacts : String → Option Estimator

/-- The registry with the calls of `promote`, the processes that serve the
model, each with its threads, and what their loaders are at. -/
structure ServingLab (serving : Serving) where
  promotions : PromotionFleet serving.service.name serving.service.alias
  replicas : Nat → ApiFleet
  loaders : Nat × Nat → Option LoadRun

inductive ServingAction (serving : Serving)
  | promotion (action : PromotionAction serving.service.name serving.service.alias)
  | beginLoad (replica id : Nat)
  | loaderCall (replica id : Nat) (exchange : Program.Exchange LoaderReply)
  | answerLoad (replica id : Nat) (outcome : LoaderOutcome)
  | replica (replica : Nat) (action : ApiAction)

/-- What the registry answers a loader: it raises anything, or tells what is
there at the moment. -/
inductive LoaderCall.Answers (artifacts : String → Option Estimator) (model : String) (registry : ModelRegistry) :
    (request : LoaderCall) → LoaderReply request → Prop
  | setTrackingUri {uri} (reply : Except Unit Unit) : Answers artifacts model registry (.setTrackingUri uri) reply
  | getModelVersionByAlias {«alias»} {reply : Except Unit ModelVersion} :
      (∀ mv, reply = .ok mv → registry.aliases «alias» = some mv.version ∧
        registry.runIds mv.version = some mv.runId) →
      Answers artifacts model registry (.getModelVersionByAlias model «alias») reply
  | loadModel {modelUri} {reply : Except Unit Estimator} :
      (∀ estimator, reply = .ok estimator → artifacts modelUri = some estimator) →
      Answers artifacts model registry (.loadModel modelUri) reply
  | utcNow (now : Datetime) : Answers artifacts model registry .utcNow now

/-- What the cache makes of the end of a loader. -/
inductive LoaderProgram.Ended : LoaderProgram LoadedModel → LoaderOutcome → Prop
  | loaded {model : LoadedModel} : Ended (.pure model) (.loaded model)
  | raised (error : String) (caught : Python.Double) : Ended (.raise ()) (.raised error caught)

/-- The answer of the loader that a step of the application notes. -/
def ApiAction.noted : ApiAction → List (Nat × LoaderOutcome)
  | .inr (id, .call exchange) => (loadsMade [exchange]).map fun outcome => (id, outcome)
  | _ => []

namespace ServingLab

variable (serving : Serving)

abbrev ReplicaStep (replica : Nat) : ApiFleet → ApiAction → ApiFleet → Prop :=
  Guarded (ApiStep serving.service (serving.settings replica)) (Living (serving.settings replica))

/-- One step of the promotions, of a loader, or of a process. A thread that
calls its loader waits for the loader to end. -/
inductive Step : ServingLab serving → ServingAction serving → ServingLab serving → Prop
  | promotion {lab action after} : PromotionStep serving.service.name serving.service.alias lab.promotions action after →
      Step lab (.promotion action) { lab with promotions := after }
  | beginLoad {lab replica id task past name «alias» resume} :
      (lab.replicas replica).processes id = .running task past (.call (.inr (.load name «alias»)) resume) →
      lab.loaders (replica, id) = none →
      Step lab (.beginLoad replica id)
        { lab with
          loaders := Function.update lab.loaders (replica, id)
            (some ⟨name, «alias», [], mlflowLoader serving.trackingUri name «alias»⟩) }
  | loaderCall {lab replica id name «alias» past request resume} (reply : LoaderReply request) :
      lab.loaders (replica, id) = some ⟨name, «alias», past, .call request resume⟩ →
      request.Answers serving.artifacts serving.service.name lab.promotions.shared.registry reply →
      Step lab (.loaderCall replica id ⟨request, reply⟩)
        { lab with
          loaders := Function.update lab.loaders (replica, id)
            (some ⟨name, «alias», past ++ [⟨request, reply⟩], resume reply⟩) }
  | answerLoad {lab replica id name «alias» past rest after} {outcome : LoaderOutcome} :
      lab.loaders (replica, id) = some ⟨name, «alias», past, rest⟩ → rest.Ended outcome →
      ReplicaStep serving replica (lab.replicas replica) (.inr (id, .call ⟨.inr (.load name «alias»), outcome⟩)) after →
      Step lab (.answerLoad replica id outcome)
        { lab with
          replicas := Function.update lab.replicas replica after
          loaders := Function.update lab.loaders (replica, id) none }
  | replica {lab replica action after} : ReplicaStep serving replica (lab.replicas replica) action after →
      action.noted = [] →
      Step lab (.replica replica action) { lab with replicas := Function.update lab.replicas replica after }

/-- Nothing was ever promoted and no process runs. -/
def initial (registry : ModelRegistry) : ServingLab serving :=
  ⟨.initial _ _ registry, fun _ => .initial, fun _ => none⟩

variable {serving} {registry : ModelRegistry} {lab after : ServingLab serving} {version : String}

/-- The version was cleared for promotion, and this is its estimator. -/
def Legitimate (lab : ServingLab serving) (version : String) (estimator : Estimator) : Prop :=
  lab.promotions.Promoted version ∧ serving.artifacts (modelUri serving.service.name version) = some estimator

/-- What the registry told was of the champion, or was an estimator. -/
def Honest (lab : ServingLab serving) : Program.Exchange LoaderReply → Prop
  | ⟨.getModelVersionByAlias _ «alias», reply⟩ => «alias» = serving.service.alias →
    ∀ mv, (reply : Except Unit ModelVersion) = .ok mv → lab.promotions.Promoted mv.version
  | ⟨.loadModel modelUri, reply⟩ =>
    ∀ estimator, (reply : Except Unit Estimator) = .ok estimator → serving.artifacts modelUri = some estimator
  | _ => True

/-- A loader follows its program for the configured model and has been told
no more than the registry holds. -/
structure SoundRun (lab : ServingLab serving) (run : LoadRun) : Prop where
  configured : run.name = serving.service.name ∧ run.alias = serving.service.alias
  runs : (mlflowLoader serving.trackingUri run.name run.alias).Runs run.past run.rest
  honest : ∀ exchange ∈ run.past, Honest lab exchange

theorem Step.promoted {action : ServingAction serving} (taken : Step serving lab action after)
    (promoted : lab.promotions.Promoted version) : after.promotions.Promoted version := by
  cases taken with
  | promotion taken => exact promoted.step taken
  | _ => exact promoted

theorem Honest.mono {exchange : Program.Exchange LoaderReply} (honest : Honest lab exchange)
    (more : ∀ version, lab.promotions.Promoted version → after.promotions.Promoted version) : Honest after exchange := by
  obtain ⟨request, reply⟩ := exchange
  cases request with
  | getModelVersionByAlias => exact fun same mv told => more _ (honest same mv told)
  | loadModel => exact honest
  | _ => trivial

theorem SoundRun.mono {run : LoadRun} (sound : lab.SoundRun run)
    (more : ∀ version, lab.promotions.Promoted version → after.promotions.Promoted version) : after.SoundRun run :=
  ⟨sound.configured, sound.runs, fun exchange member => (sound.honest exchange member).mono more⟩

theorem reach_promotions (reach : Reach (Step serving) (.initial serving registry) lab) :
    Reach (PromotionStep _ _) (.initial _ _ registry) lab.promotions := by
  refine reach.simulates (fun lab => lab.promotions) fun before action after taken => ?_
  cases taken with
  | promotion taken => exact .single ⟨_, taken⟩
  | _ => exact .refl

/-- A process takes a step of its own or stands still. -/
theorem Step.onReplica {action : ServingAction serving} (taken : Step serving lab action after) (replica : Nat) :
    after.replicas replica = lab.replicas replica ∨
      ∃ action, ReplicaStep serving replica (lab.replicas replica) action (after.replicas replica) := by
  have follows {actor : Nat} {fleet : ApiFleet} {action : ApiAction}
      (step : ReplicaStep serving actor (lab.replicas actor) action fleet) :
      Function.update lab.replicas actor fleet replica = lab.replicas replica ∨ ∃ action,
        ReplicaStep serving replica (lab.replicas replica) action (Function.update lab.replicas actor fleet replica) := by
    by_cases same : replica = actor
    · subst same
      rw [Function.update_self]
      exact Or.inr ⟨_, step⟩
    · rw [Function.update_of_ne same]
      exact Or.inl rfl
  cases taken with
  | replica step _ => exact follows step
  | answerLoad _ _ step => exact follows step
  | _ => exact Or.inl rfl

theorem reach_replica (reach : Reach (Step serving) (.initial serving registry) lab) (replica : Nat) :
    Reach (ReplicaStep serving replica) .initial (lab.replicas replica) := by
  refine reach.simulates (fun lab => lab.replicas replica) fun before action after taken => ?_
  rcases taken.onReplica replica with same | step
  · rw [same]
  · exact .single step

/-- A step of the application adds the answer that it notes. -/
theorem ReplicaStep.loads {replica : Nat} {fleet onward : ApiFleet} {action : ApiAction}
    (step : ReplicaStep serving replica fleet action onward) :
    onward.shared.loads = fleet.shared.loads ++ action.noted := by
  obtain ⟨taken, -⟩ := step
  cases taken with
  | @environment event => exact event.elim
  | @process actor action shared next taken =>
    generalize fleet.processes actor = thread at taken
    cases taken with
    | call reply performed => exact performed.loads
    | start | «return» | raise | crash => exact (List.append_nil _).symm

/-- The answer that a step makes a process note. -/
def noted (replica : Nat) : ServingAction serving → List (Nat × LoaderOutcome)
  | .answerLoad actor id outcome => if replica = actor then [(id, outcome)] else []
  | _ => []

theorem mem_noted {replica actor id caller : Nat} {outcome answer : LoaderOutcome}
    (member : (caller, answer) ∈ noted replica (.answerLoad actor id outcome : ServingAction serving)) :
    replica = actor ∧ (caller, answer) = (id, outcome) := by
  have listed : (caller, answer) ∈ if replica = actor then [(id, outcome)] else [] := member
  by_cases same : replica = actor
  · rw [if_pos same] at listed
    exact ⟨same, List.mem_singleton.mp listed⟩
  · rw [if_neg same] at listed
    cases listed

theorem Step.loads {action : ServingAction serving} (taken : Step serving lab action after) (replica : Nat) :
    (after.replicas replica).shared.loads = (lab.replicas replica).shared.loads ++ noted replica action := by
  have updated {actor : Nat} {fleet : ApiFleet} {action : ApiAction}
      (step : ReplicaStep serving actor (lab.replicas actor) action fleet) :
      (Function.update lab.replicas actor fleet replica).shared.loads =
        (lab.replicas replica).shared.loads ++ if replica = actor then action.noted else [] := by
    by_cases same : replica = actor
    · subst same
      rw [Function.update_self, if_pos rfl]
      exact ReplicaStep.loads step
    · rw [Function.update_of_ne same, if_neg same, List.append_nil]
  cases taken with
  | promotion | beginLoad | loaderCall => exact (List.append_nil _).symm
  | replica step silent =>
    refine (updated step).trans ?_
    rw [silent, ite_self]
    rfl
  | answerLoad _ _ step => exact updated step

/-- The loaders are sound, and every model that one answered is legitimate. -/
structure Sound (lab : ServingLab serving) : Prop where
  loaders : ∀ place run, lab.loaders place = some run → lab.SoundRun run
  loads : ∀ replica id model, (id, LoaderOutcome.loaded model) ∈ (lab.replicas replica).shared.loads →
    model.metadata.name = serving.service.name ∧ lab.Legitimate model.metadata.version model.predictProba

theorem Sound.mono (sound : Sound lab)
    (promoted : ∀ version, lab.promotions.Promoted version → after.promotions.Promoted version)
    (runs : ∀ place run, after.loaders place = some run → after.SoundRun run ∨ lab.loaders place = some run)
    (answers : ∀ replica id model, (id, LoaderOutcome.loaded model) ∈ (after.replicas replica).shared.loads →
      (model.metadata.name = serving.service.name ∧ after.Legitimate model.metadata.version model.predictProba) ∨
        (id, LoaderOutcome.loaded model) ∈ (lab.replicas replica).shared.loads) : Sound after where
  loaders place run found := (runs place run found).elim id fun old => (sound.loaders place run old).mono promoted
  loads replica id model noted := by
    rcases answers replica id model noted with legitimate | old
    · exact legitimate
    · obtain ⟨named, promotedBefore, found⟩ := sound.loads replica id model old
      exact ⟨named, promoted _ promotedBefore, found⟩

/-- What a loader that has ended well has loaded is legitimate. -/
theorem SoundRun.legitimate {run : LoadRun} {model : LoadedModel} (sound : lab.SoundRun run)
    (ended : run.rest = .pure model) :
    model.metadata.name = serving.service.name ∧ lab.Legitimate model.metadata.version model.predictProba := by
  have runs := sound.runs
  rw [ended] at runs
  have ends : (mlflowLoader serving.trackingUri run.name run.alias).Ends run.past (.ok model) := runs
  obtain ⟨named, -, ⟨mv, version, -, resolved⟩, found⟩ := ends.obeys (mlflowLoader_loads ..) model rfl
  rw [sound.configured.1] at named found
  refine ⟨named, version ▸ sound.honest _ resolved sound.configured.2 mv rfl, sound.honest _ found _ rfl⟩

/-- What the registry tells a loader is honest. -/
theorem honest_of_answers (reach : Reach (Step serving) (.initial serving registry) lab) {request : LoaderCall}
    {reply : LoaderReply request}
    (answers : request.Answers serving.artifacts serving.service.name lab.promotions.shared.registry reply) :
    Honest lab ⟨request, reply⟩ := by
  cases answers with
  | getModelVersionByAlias told =>
    rintro rfl mv same
    exact PromotionFleet.champion_promoted (reach_promotions reach) (told mv same).1
  | loadModel told => exact told
  | setTrackingUri | utcNow => trivial

/-- A thread at its loader asks for the configured model. -/
theorem configured_of_loading (reach : Reach (Step serving) (.initial serving registry) lab) {replica id : Nat}
    {task : ApiTask} {past : List (Program.Exchange ServerReply)} {name «alias» : String}
    {resume : LoaderOutcome → ApiProgram ApiResult}
    (atCall : (lab.replicas replica).processes id = .running task past (.call (.inr (.load name «alias»)) resume)) :
    name = serving.service.name ∧ «alias» = serving.service.alias := by
  have follows := Workload.follows (reach_replica reach replica) (fun _ => trivial) id
  rw [atCall] at follows
  exact ((Api.body_configured task).of_runs follows).1.1

/-- After a loader has been put at a place. -/
theorem run_of_update {place other : Nat × Nat} {found : LoadRun} {next : Option LoadRun}
    (new : ∀ run, next = some run → after.SoundRun run)
    (there : Function.update lab.loaders place next other = some found) :
    after.SoundRun found ∨ lab.loaders other = some found := by
  by_cases same : other = place
  · rw [same, Function.update_self] at there
    exact Or.inl (new found there)
  · rw [Function.update_of_ne same] at there
    exact Or.inr there

theorem Sound.step {action : ServingAction serving} (reach : Reach (Step serving) (.initial serving registry) lab)
    (sound : Sound lab) (taken : Step serving lab action after) : Sound after := by
  refine sound.mono (fun version => taken.promoted) ?_ ?_
  · intro place run found
    cases taken with
    | promotion | replica => exact Or.inr found
    | beginLoad atCall =>
      refine run_of_update (fun run same => ?_) found
      cases same
      exact ⟨configured_of_loading reach atCall, .start, List.forall_mem_nil _⟩
    | loaderCall reply atCall answers =>
      refine run_of_update (fun run same => ?_) found
      cases same
      obtain ⟨configured, runs, honest⟩ := sound.loaders _ _ atCall
      refine ⟨configured, runs.answer reply, fun exchange member => ?_⟩
      rcases List.mem_append.mp member with old | new
      · exact honest exchange old
      · rw [List.mem_singleton.mp new]
        exact honest_of_answers reach answers
    | answerLoad =>
      refine run_of_update (fun run impossible => ?_) found
      cases impossible
  · intro replica id model noted
    rw [taken.loads replica] at noted
    rcases List.mem_append.mp noted with old | new
    · exact Or.inr old
    · cases taken with
      | answerLoad atCall ended step =>
        obtain ⟨-, same⟩ := mem_noted new
        cases ended with
        | loaded =>
          cases same
          exact Or.inl ((sound.loaders _ _ atCall).legitimate rfl)
        | raised => cases same
      | _ => cases new

theorem sound_of_reach (reach : Reach (Step serving) (.initial serving registry) lab) : Sound lab := by
  refine reach.invariant Sound ⟨fun place run impossible => ?_, fun replica id model impossible => ?_⟩ ?_
  · cases impossible
  · cases impossible
  exact fun before action after reached sound taken => sound.step reached taken

/-- The label and the probability are those of the estimator of this
version, which was cleared for promotion. -/
structure Certified (lab : ServingLab serving) (name version : String) (prediction : Int) (probability : Python.Double)
    (features : Features) : Prop where
  named : name = serving.service.name
  promoted : lab.promotions.Promoted version
  computed : ∃ estimator, serving.artifacts (modelUri serving.service.name version) = some estimator ∧
    (frame features).bind estimator = some probability
  label : prediction = labelOf probability

/-- **Nothing is served from a version that was not promoted.** However calls
of `promote`, registry changes, loaders, refreshes and requests of any number
of processes interleave: the model that a process serves, every row it has
stored, every event it has handed over and every prediction it has answered
are of a version that some call of `promote` cleared (forced by the operator,
or above both floors and within the tolerance of the champion it had read),
and are what the estimator kept under that version gives. -/
theorem served_promoted (reach : Reach (Step serving) (.initial serving registry) lab) (replica : Nat) :
    (∀ model, (lab.replicas replica).shared.server.current = some model →
      lab.Legitimate model.metadata.version model.predictProba) ∧
    (∀ id row, (id, row) ∈ (lab.replicas replica).shared.server.predictions →
      lab.Certified row.modelName row.modelVersion row.prediction row.probability row.features) ∧
    (∀ id event, (id, event) ∈ (lab.replicas replica).shared.server.handed →
      ∃ features, lab.Certified event.modelName event.modelVersion event.prediction event.probability features) ∧
    ∀ id task past tid answer, task.Predicts →
      (lab.replicas replica).processes id = .ended task past (some (.ok (ApiTask.predicted tid answer))) →
      ∃ features, lab.Certified answer.model.name answer.model.version answer.prediction answer.probability features := by
  have reached := reach_replica reach replica
  have legitimate {id : Nat} {model : LoadedModel}
      (noted : (id, LoaderOutcome.loaded model) ∈ (lab.replicas replica).shared.loads) :=
    (sound_of_reach reach).loads replica id model noted
  refine ⟨fun model serves => ?_, fun id row stored => ?_, fun id event handed => ?_, ?_⟩
  · obtain ⟨id, noted⟩ := Api.served_loaded reached serves
    exact (legitimate noted).2
  · obtain ⟨other, model, noted, name, version, gives⟩ := Api.row_loaded reached stored
    obtain ⟨named, promoted, found⟩ := legitimate noted
    exact ⟨name.trans named, version ▸ promoted, ⟨_, version ▸ found, gives.proba⟩, gives.label⟩
  · obtain ⟨other, model, noted, name, version, features, gives⟩ := Api.event_loaded reached handed
    obtain ⟨named, promoted, found⟩ := legitimate noted
    exact ⟨features, name.trans named, version ▸ promoted, ⟨_, version ▸ found, gives.proba⟩, gives.label⟩
  · intro id task past tid answer predicts ended
    obtain ⟨other, model, noted, same, features, gives⟩ := Api.answer_loaded reached ended predicts
    obtain ⟨named, promoted, found⟩ := legitimate noted
    rw [same]
    exact ⟨features, named, promoted, ⟨_, found, gives.proba⟩, gives.label⟩

/-- The promotions can go on by themselves. -/
theorem reach_promote {fleet : PromotionFleet serving.service.name serving.service.alias}
    (run : Reach (PromotionStep _ _) lab.promotions fleet) : Reach (Step serving) lab { lab with promotions := fleet } := by
  refine run.simulates (fun fleet => { lab with promotions := fleet }) fun before action after taken => ?_
  exact .single ⟨_, .promotion taken⟩

/-- The steps of a process that need no answer of its loader. -/
abbrev Silently (serving : Serving) (replica : Nat) : ApiFleet → ApiAction → ApiFleet → Prop :=
  Guarded (ApiStep serving.service (serving.settings replica))
    fun fleet action => Living (serving.settings replica) fleet action ∧ action.noted = []

section Alone

variable {allowed : ServingLab serving → ServingAction serving → Prop} {origin : ServingLab serving}
  {promotions : PromotionFleet serving.service.name serving.service.alias} {replicas : Nat → ApiFleet}
  {loaders : Nat × Nat → Option LoadRun} {replica id : Nat} {name «alias» : String}
  {past : List (Program.Exchange LoaderReply)}
  (allows : ∀ lab action, lab.promotions = promotions → allowed lab action)

include allows in
/-- A process can go on by itself until it needs an answer of its loader. -/
theorem reach_silent {fleet : ApiFleet}
    (reach : Reach (Guarded (Step serving) allowed) origin ⟨promotions, replicas, loaders⟩)
    (run : Reach (Silently serving replica) (replicas replica) fleet) :
    Reach (Guarded (Step serving) allowed) origin ⟨promotions, Function.update replicas replica fleet, loaders⟩ := by
  have along : Reach (Guarded (Step serving) allowed)
      ⟨promotions, Function.update replicas replica (replicas replica), loaders⟩
      ⟨promotions, Function.update replicas replica fleet, loaders⟩ := by
    let view (fleet : ApiFleet) : ServingLab serving := ⟨promotions, Function.update replicas replica fleet, loaders⟩
    refine run.simulates view ?_
    rintro before action after ⟨step, living, silent⟩
    have here : ReplicaStep serving replica (Function.update replicas replica before replica) action after := by
      rw [Function.update_self]
      exact ⟨step, living⟩
    have taken : Step serving ⟨promotions, Function.update replicas replica before, loaders⟩ (.replica replica action)
        ⟨promotions, Function.update (Function.update replicas replica before) replica after, loaders⟩ :=
      .replica here silent
    rw [Function.update_idem] at taken
    exact .single ⟨_, taken, allows _ _ rfl⟩
  rw [Function.update_eq_self] at along
  exact reach.trans along

include allows in
theorem reach_loaderCall {rest : LoaderProgram LoadedModel} {request : LoaderCall}
    {resume : LoaderReply request → LoaderProgram LoadedModel}
    (reach : Reach (Guarded (Step serving) allowed) origin
      ⟨promotions, replicas, Function.update loaders (replica, id) (some ⟨name, «alias», past, rest⟩)⟩)
    (atCall : rest = .call request resume) (reply : LoaderReply request)
    (answers : request.Answers serving.artifacts serving.service.name promotions.shared.registry reply) :
    Reach (Guarded (Step serving) allowed) origin ⟨promotions, replicas,
      Function.update loaders (replica, id) (some ⟨name, «alias», past ++ [⟨request, reply⟩], resume reply⟩)⟩ := by
  subst atCall
  let run : LoadRun := ⟨name, «alias», past, .call request resume⟩
  have there : Function.update loaders (replica, id) (some run) (replica, id) = some run := Function.update_self ..
  have taken : Step serving ⟨promotions, replicas, Function.update loaders (replica, id) (some run)⟩
      (.loaderCall replica id ⟨request, reply⟩) ⟨promotions, replicas, Function.update
        (Function.update loaders (replica, id) (some run)) (replica, id)
        (some ⟨name, «alias», past ++ [⟨request, reply⟩], resume reply⟩)⟩ := .loaderCall reply there answers
  rw [Function.update_idem] at taken
  exact reach.tail ⟨_, taken, allows _ _ rfl⟩

include allows in
theorem reach_answerLoad {rest : LoaderProgram LoadedModel} {outcome : LoaderOutcome} {fleet : ApiFleet}
    (reach : Reach (Guarded (Step serving) allowed) origin
      ⟨promotions, replicas, Function.update loaders (replica, id) (some ⟨name, «alias», past, rest⟩)⟩)
    (ended : rest.Ended outcome)
    (step : ReplicaStep serving replica (replicas replica) (.inr (id, .call ⟨.inr (.load name «alias»), outcome⟩)) fleet) :
    Reach (Guarded (Step serving) allowed) origin
      ⟨promotions, Function.update replicas replica fleet, Function.update loaders (replica, id) none⟩ := by
  let run : LoadRun := ⟨name, «alias», past, rest⟩
  have there : Function.update loaders (replica, id) (some run) (replica, id) = some run := Function.update_self ..
  have taken : Step serving ⟨promotions, replicas, Function.update loaders (replica, id) (some run)⟩
      (.answerLoad replica id outcome) ⟨promotions, Function.update replicas replica fleet,
        Function.update (Function.update loaders (replica, id) (some run)) (replica, id) none⟩ :=
    .answerLoad there ended step
  rw [Function.update_idem] at taken
  exact reach.tail ⟨_, taken, allows _ _ rfl⟩

theorem answered_step {s : Api} {processes : Nat → ApiThread} {task : ApiTask} {before : List (Program.Exchange ServerReply)}
    {resume : LoaderOutcome → ApiProgram ApiResult} (outcome : LoaderOutcome) :
    ReplicaStep serving replica
      ⟨s, Function.update processes id (.running task before (.call (.inr (.load name «alias»)) resume))⟩
      (.inr (id, .call ⟨.inr (.load name «alias»), outcome⟩))
      ⟨{ s with loads := s.loads ++ [(id, outcome)] }, Function.update processes id
        (.running task (before ++ [⟨.inr (.load name «alias»), outcome⟩]) (resume outcome))⟩ := by
  let thread : ApiThread := .running task before (.call (.inr (.load name «alias»)) resume)
  have acts : (answering serving.service (serving.settings replica)).Act id s (Function.update processes id thread id)
      (.call ⟨.inr (.load name «alias»), outcome⟩) { s with loads := s.loads ++ [(id, outcome)] }
      (.running task (before ++ [⟨.inr (.load name «alias»), outcome⟩]) (resume outcome)) := by
    have performed : Api.Performs id s (.inr (.load name «alias»)) outcome { s with loads := s.loads ++ [(id, outcome)] } :=
      .load outcome
    rw [Function.update_self]
    exact .call _ performed
  have taken : ApiStep serving.service (serving.settings replica) ⟨s, Function.update processes id thread⟩ _ _ :=
    .process acts
  rw [Function.update_idem] at taken
  exact ⟨taken, trivial⟩

include allows in
/-- A load can run through by itself. -/
theorem reach_load {s : Api} {processes : Nat → ApiThread} {task : ApiTask} {before : List (Program.Exchange ServerReply)}
    {resume : LoaderOutcome → ApiProgram ApiResult} {estimator : Estimator} (mv : ModelVersion)
    (reach : Reach (Guarded (Step serving) allowed) origin ⟨promotions, replicas, loaders⟩)
    (free : loaders (replica, id) = none)
    (atReplica : replicas replica = ⟨s, Function.update processes id
      (.running task before (.call (.inr (.load serving.service.name «alias»)) resume))⟩)
    (named : promotions.shared.registry.aliases «alias» = some mv.version)
    (ran : promotions.shared.registry.runIds mv.version = some mv.runId)
    (kept : serving.artifacts (modelUri serving.service.name mv.version) = some estimator) (loadedAt : Datetime) :
    let outcome : LoaderOutcome := .loaded (mv.loaded serving.service.name «alias» estimator loadedAt)
    Reach (Guarded (Step serving) allowed) origin
      ⟨promotions, Function.update replicas replica ⟨{ s with loads := s.loads ++ [(id, outcome)] },
        Function.update processes id (.running task
          (before ++ [⟨.inr (.load serving.service.name «alias»), outcome⟩]) (resume outcome))⟩, loaders⟩ := by
  have stands : (replicas replica).processes id =
      .running task before (.call (.inr (.load serving.service.name «alias»)) resume) := by
    rw [atReplica]
    exact Function.update_self ..
  have begun := reach.tail ⟨_, Step.beginLoad stands free, allows _ _ rfl⟩
  have set := reach_loaderCall allows begun rfl (Except.ok () : Except Unit Unit) (.setTrackingUri _)
  have resolved := reach_loaderCall allows set rfl (Except.ok mv : Except Unit ModelVersion)
    (.getModelVersionByAlias fun found same => by cases same; exact ⟨named, ran⟩)
  have found := reach_loaderCall allows resolved rfl (Except.ok estimator : Except Unit Estimator)
    (.loadModel fun found same => by cases same; exact kept)
  have stamped := reach_loaderCall allows found rfl loadedAt (.utcNow _)
  have answered := reach_answerLoad allows stamped .loaded (atReplica ▸ answered_step _)
  have same : Function.update loaders (replica, id) none = loaders := Function.update_eq_self_iff.mpr free.symm
  rwa [same] at answered

end Alone

section FirstRollout

open Workload (reach_start reach_call reach_return)

def firstServing : Serving where
  trackingUri := "http://mlflow:5000"
  service := wholeService
  settings _ := {}
  artifacts _ := some fun _ => some 0x3FE8000000000000

/-- The rest of a refresh request once the loader has answered it. -/
def refreshAnswered (outcome : LoaderOutcome) : ApiProgram ApiResult :=
  (refreshCache.loaded none outcome).bind fun (previous, current) =>
  ApiCall.readLastError.run.bind fun (error : Option String) =>
  .pure (.response { status := 200, body := .refreshed previous current (previous != current) error })

/-- The first process with its first refresh at the loader. -/
def loadingFleet (past : List (Program.Exchange ServerReply)) : ApiFleet :=
  ⟨{ server := { lock := some 0 } }, Function.update (fun _ => .idle) 0 (.running (.refresh (some "dev-admin-token")) past
    (.call (.inr (.load wholeService.name wholeService.alias)) refreshAnswered))⟩

theorem loading_reached : ∃ past, Reach (Silently firstServing 0) .initial (loadingFleet past) := by
  have initial : Reach (Silently firstServing 0) .initial ⟨{}, Function.update (fun _ => .idle) 0 .idle⟩ := by
    rw [Function.update_eq_self_iff.mpr rfl]
    exact .refl
  have started := reach_start initial (.refresh (some "dev-admin-token")) ⟨trivial, rfl⟩
  have locked := reach_call started rfl () (.service (.acquireLock rfl) rfl) ⟨trivial, rfl⟩
  exact ⟨_, reach_call locked rfl (none : Option LoadedModel) (.service .readCurrent rfl) ⟨trivial, rfl⟩⟩

/-- What the loader makes of the first version that is promoted. -/
def firstVersion : ModelVersion := ⟨"2", some "run-2", []⟩

def firstLoaded : LoadedModel :=
  firstVersion.loaded "higgs_decision_tree" "champion" (fun _ => some 0x3FE8000000000000) ⟨0, some 0⟩

/-- The first process with the answer of its loader. -/
def answeredFleet (past : List (Program.Exchange ServerReply)) : ApiFleet :=
  ⟨{ server := { lock := some 0 }, loads := [(0, .loaded firstLoaded)] }, Function.update (fun _ => .idle) 0
    (.running (.refresh (some "dev-admin-token"))
      (past ++ [⟨.inr (.load wholeService.name wholeService.alias), LoaderOutcome.loaded firstLoaded⟩])
      (refreshAnswered (.loaded firstLoaded)))⟩

/-- The version is champion. -/
def Names (lab : ServingLab serving) (version : String) : Prop :=
  lab.promotions.shared.registry.aliases serving.service.alias = some version

/-- Steps taken while the version is champion. -/
abbrev WhileChampion (serving : Serving) (version : String) : ServingLab serving → ServingAction serving →
    ServingLab serving → Prop :=
  Guarded (Step serving) fun lab _ => lab.Names version

/-- The first promotion has been made. -/
def promotedLab (promoting : List (Program.Exchange PromoteReply)) : ServingLab firstServing where
  promotions := ⟨(PromotionFleet.initial "higgs_decision_tree" "champion" trainedRegistry).shared.moveAlias 0 "champion"
    "2", Function.update (fun _ => .idle) 0 (.running (promotionOf "2") promoting
      (recordPromotion {} (promotionOf "2").request "2" (some "run-2") none firstDecision))⟩
  replicas _ := .initial
  loaders _ := none

theorem promotion_reached : ∃ promoting,
    Reach (Step firstServing) (.initial firstServing trainedRegistry) (promotedLab promoting) := by
  obtain ⟨promoting, moved⟩ := first_alias_set
  exact ⟨promoting, reach_promote moved.forget_guard⟩

/-- The refresh of the first process ends with the version just promoted. -/
theorem refresh_run (promoting : List (Program.Exchange PromoteReply)) : ∃ lab past response,
    Reach (WhileChampion firstServing "2") (promotedLab promoting) lab ∧
      (lab.replicas 0).shared.server.current = some firstLoaded ∧
      (lab.replicas 0).processes 0 = .ended (.refresh (some "dev-admin-token")) past (some (.ok (.response response))) ∧
      ⟨.inr (.load wholeService.name wholeService.alias), LoaderOutcome.loaded firstLoaded⟩ ∈ past := by
  have allows (lab : ServingLab firstServing) (action : ServingAction firstServing)
      (same : lab.promotions = (promotedLab promoting).promotions) : lab.Names "2" := by
    rw [Names, same]
    rfl
  obtain ⟨past, loading⟩ := loading_reached
  have start : Reach (WhileChampion firstServing "2") (promotedLab promoting)
      ⟨(promotedLab promoting).promotions, fun _ => .initial, fun _ => none⟩ := .refl
  have asking := reach_silent allows start loading
  have here : Function.update (fun _ => ApiFleet.initial) 0 (loadingFleet past) 0 = loadingFleet past :=
    Function.update_self ..
  have answered := reach_load allows firstVersion asking rfl here rfl rfl rfl ⟨0, some 0⟩
  have there : Reach (Silently firstServing 0) (answeredFleet past) ⟨_, Function.update (fun _ => .idle) 0 _⟩ := .refl
  have again := reach_call there rfl (none : Option LoadedModel) (.service .readCurrent rfl) ⟨trivial, rfl⟩
  have written := reach_call again rfl () (.service .writeCurrent rfl) ⟨trivial, rfl⟩
  have cleared := reach_call written rfl () .writeLastError ⟨trivial, rfl⟩
  have counted := reach_call cleared rfl (0 : Nat) .readRefreshCount ⟨trivial, rfl⟩
  have stored := reach_call counted rfl () .writeRefreshCount ⟨trivial, rfl⟩
  have released := reach_call stored rfl () (.service .releaseLock rfl) ⟨trivial, rfl⟩
  have asked := reach_call released rfl (none : Option String) .readLastError ⟨trivial, rfl⟩
  have returned := reach_return asked rfl ⟨trivial, rfl⟩
  refine ⟨_, _, _, reach_silent allows answered returned, rfl, rfl, ?_⟩
  iterate 7 refine List.mem_append_left _ ?_
  exact List.mem_append_right _ (List.mem_singleton.mpr rfl)

/-- The first version served is the one that the first promotion cleared. -/
theorem first_version_promoted : ∃ lab : ServingLab firstServing,
    Reach (Step firstServing) (.initial firstServing trainedRegistry) lab ∧
      (lab.replicas 0).shared.server.current = some firstLoaded ∧ lab.promotions.Promoted "2" := by
  obtain ⟨promoting, promoted⟩ := promotion_reached
  obtain ⟨lab, -, -, run, serves, -⟩ := refresh_run promoting
  have reach := promoted.trans run.forget_guard
  obtain ⟨legitimate, -⟩ := served_promoted reach 0
  exact ⟨lab, reach, serves, (legitimate firstLoaded serves).1⟩

end FirstRollout

end ServingLab

end Amel
