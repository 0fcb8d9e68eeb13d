import Amel.Inference.LoadLock
import Amel.Lab.Serving

namespace Amel

open Transition (Reach Guarded)
open Program (lefts)

namespace ServingLab

variable {serving : Serving} {registry : ModelRegistry} {start lab after : ServingLab serving} {version : String}
  {replica id : Nat}

section Waiting

variable {fleet onward : ApiFleet} {action : ApiAction}

/-- A step of one thread leaves the others where they stand. -/
theorem ReplicaStep.others {actor : Nat} {taken : ThreadAction ApiTask ServerReply}
    (step : ReplicaStep serving replica fleet (.inr (actor, taken)) onward) (different : id ≠ actor) :
    onward.processes id = fleet.processes id := by
  obtain ⟨step, -⟩ := step
  cases step with
  | process => exact Function.update_of_ne different ..

/-- A thread that waits for its loader goes on only with the answer. -/
theorem ReplicaStep.waits {task : ApiTask} {past : List (Program.Exchange ServerReply)} {name «alias» : String}
    {resume : LoaderOutcome → ApiProgram ApiResult} (step : ReplicaStep serving replica fleet action onward)
    (silent : action.noted = [])
    (atCall : fleet.processes id = .running task past (.call (.inr (.load name «alias»)) resume)) :
    onward.processes id = fleet.processes id := by
  cases action with
  | inl event => exact event.elim
  | inr moved =>
    obtain ⟨actor, taken⟩ := moved
    by_cases same : id = actor
    · subst same
      obtain ⟨step, living⟩ := step
      cases step with
      | process acted =>
        rw [atCall] at acted
        cases acted with
        | call => cases silent
        | crash => exact living.elim
    · exact step.others same

theorem ReplicaStep.ended {task : ApiTask} {past : List (Program.Exchange ServerReply)}
    {result : Option (Except ServiceError ApiResult)} (step : ReplicaStep serving replica fleet action onward)
    (ended : fleet.processes id = .ended task past result) : onward.processes id = .ended task past result := by
  cases action with
  | inl event => exact event.elim
  | inr moved =>
    obtain ⟨actor, taken⟩ := moved
    by_cases same : id = actor
    · subst same
      obtain ⟨step, -⟩ := step
      cases step with
      | process acted =>
        rw [ended] at acted
        cases acted
    · exact (step.others same).trans ended

/-- A thread has at most one exchange more after a step. -/
theorem ReplicaStep.past (step : ReplicaStep serving replica fleet action onward) (id : Nat) :
    (onward.processes id).past = (fleet.processes id).past ∨ ∃ exchange,
      (onward.processes id).past = (fleet.processes id).past ++ [exchange] ∧
        Api.Performs id fleet.shared exchange.1 exchange.2 onward.shared := by
  cases action with
  | inl event => exact event.elim
  | inr moved =>
    obtain ⟨actor, taken⟩ := moved
    by_cases same : id = actor
    · subst same
      obtain ⟨step, -⟩ := step
      cases step with
      | process acted =>
        simp only [Function.update_self]
        rcases acted.past with unchanged | ⟨exchange, extended, -, performed⟩
        · exact Or.inl unchanged
        · exact Or.inr ⟨exchange, extended, performed⟩
    · exact Or.inl (congrArg Thread.past (step.others same))

end Waiting

/-- Every loader in progress is one that its thread waits for. -/
def Awaited (lab : ServingLab serving) : Prop :=
  ∀ replica id run, lab.loaders (replica, id) = some run → ∃ task past resume,
    (lab.replicas replica).processes id = .running task past (.call (.inr (.load run.name run.alias)) resume)

theorem Awaited.step {action : ServingAction serving} (awaited : Awaited lab) (taken : Step serving lab action after) :
    Awaited after := by
  intro replica id run found
  cases taken with
  | promotion => exact awaited replica id run found
  | @beginLoad actor caller task past name «alias» resume atCall free =>
    have there : Function.update lab.loaders (actor, caller)
      (some ⟨name, «alias», [], mlflowLoader serving.trackingUri name «alias»⟩) (replica, id) = some run := found
    by_cases same : (replica, id) = (actor, caller)
    · cases same
      rw [Function.update_self] at there
      cases there
      exact ⟨task, past, resume, atCall⟩
    · rw [Function.update_of_ne same] at there
      exact awaited replica id run there
  | @loaderCall actor caller name «alias» past request resume reply atCall answers =>
    have there : Function.update lab.loaders (actor, caller)
      (some ⟨name, «alias», past ++ [⟨request, reply⟩], resume reply⟩) (replica, id) = some run := found
    by_cases same : (replica, id) = (actor, caller)
    · cases same
      rw [Function.update_self] at there
      cases there
      have waits := awaited replica id _ atCall
      exact waits
    · rw [Function.update_of_ne same] at there
      exact awaited replica id run there
  | @answerLoad actor caller name «alias» past rest fleet outcome atCall ended step =>
    have there : Function.update lab.loaders (actor, caller) none (replica, id) = some run := found
    by_cases same : (replica, id) = (actor, caller)
    · cases same
      rw [Function.update_self] at there
      cases there
    · rw [Function.update_of_ne same] at there
      obtain ⟨task, past, resume, waits⟩ := awaited replica id run there
      refine ⟨task, past, resume, ?_⟩
      show (Function.update lab.replicas actor fleet replica).processes id = _
      by_cases here : replica = actor
      · subst here
        rw [Function.update_self]
        exact (step.others fun equal => same (congrArg (Prod.mk replica) equal)).trans waits
      · rw [Function.update_of_ne here]
        exact waits
  | @replica actor action fleet step silent =>
    obtain ⟨task, past, resume, waits⟩ := awaited replica id run found
    refine ⟨task, past, resume, ?_⟩
    show (Function.update lab.replicas actor fleet replica).processes id = _
    by_cases here : replica = actor
    · subst here
      rw [Function.update_self]
      exact (step.waits silent waits).trans waits
    · rw [Function.update_of_ne here]
      exact waits

theorem awaited_of_reach (reach : Reach (Step serving) (.initial serving registry) lab) : Awaited lab := by
  refine reach.invariant Awaited (fun replica id run impossible => ?_) fun before action after _ awaited taken =>
    awaited.step taken
  cases impossible

/-- Of the threads of one process at most one has a loader in progress. -/
theorem one_loader (reach : Reach (Step serving) (.initial serving registry) lab) {other : Nat} {run another : LoadRun}
    (one : lab.loaders (replica, id) = some run) (two : lab.loaders (replica, other) = some another) : id = other := by
  obtain ⟨_, _, _, waits⟩ := awaited_of_reach reach replica id run one
  obtain ⟨_, _, _, waitsToo⟩ := awaited_of_reach reach replica other another two
  have mine := Api.lock_of_loading (reach_replica reach replica) waits
  have theirs := Api.lock_of_loading (reach_replica reach replica) waitsToo
  exact Option.some.inj (mine.symm.trans theirs)

/-- A loader that has been told of a version has been told of this one. -/
def Current (serving : Serving) (version : String) (run : LoadRun) : Prop :=
  ∀ name mv, ⟨.getModelVersionByAlias name serving.service.alias, (Except.ok mv : Except Unit ModelVersion)⟩ ∈ run.past →
    mv.version = version

/-- How the loads of a process stand since the version is champion. A loader
that was at work then may know an older version, but as long as it is at work
nothing else is loaded; after it only this version is. -/
structure Since (start : ServingLab serving) (version : String) (replica : Nat) (lab : ServingLab serving) : Prop where
  runs : ∀ id run, lab.loaders (replica, id) = some run → Current serving version run ∨
    (start.loaders (replica, id)).isSome ∧ (lab.replicas replica).shared.loads = (start.replicas replica).shared.loads
  loads : ∃ older newer, (lab.replicas replica).shared.loads = (start.replicas replica).shared.loads ++ older ++ newer ∧
    (∀ load ∈ older, (start.loaders (replica, load.1)).isSome) ∧
    ∀ id model, (id, LoaderOutcome.loaded model) ∈ newer → model.metadata.version = version

/-- What such a loader has loaded is this version. -/
theorem Current.loaded {run : LoadRun} {model : LoadedModel} (current : Current serving version run)
    (sound : lab.SoundRun run) (ended : run.rest = .pure model) : model.metadata.version = version := by
  have runs := sound.runs
  rw [ended] at runs
  have ends : (mlflowLoader serving.trackingUri run.name run.alias).Ends run.past (.ok model) := runs
  obtain ⟨-, -, ⟨mv, same, -, resolved⟩, -⟩ := ends.obeys (mlflowLoader_loads ..) model rfl
  rw [sound.configured.2] at resolved
  exact same.symm.trans (current _ mv resolved)

/-- While a loader of a process is at work nothing is noted there, and it
started just now, is as it was, or has been told something. -/
theorem Step.loader {action : ServingAction serving} {run : LoadRun}
    (reach : Reach (Step serving) (.initial serving registry) lab) (taken : Step serving lab action after)
    (found : after.loaders (replica, id) = some run) : noted replica action = [] ∧
      (run.past = [] ∨ lab.loaders (replica, id) = some run ∨ ∃ before exchange, lab.loaders (replica, id) = some before ∧
        run.past = before.past ++ [exchange] ∧
        exchange.1.Answers serving.artifacts serving.service.name lab.promotions.shared.registry exchange.2) := by
  have updated {place : Nat × Nat} {next : Option LoadRun}
      (there : Function.update lab.loaders place next (replica, id) = some run) :
      (replica, id) = place ∧ next = some run ∨ (replica, id) ≠ place ∧ lab.loaders (replica, id) = some run := by
    by_cases same : (replica, id) = place
    · rw [same, Function.update_self] at there
      exact Or.inl ⟨same, there⟩
    · rw [Function.update_of_ne same] at there
      exact Or.inr ⟨same, there⟩
  cases taken with
  | promotion | replica => exact ⟨rfl, Or.inr (Or.inl found)⟩
  | beginLoad =>
    rcases updated found with ⟨-, same⟩ | ⟨-, old⟩
    · cases same
      exact ⟨rfl, Or.inl rfl⟩
    · exact ⟨rfl, Or.inr (Or.inl old)⟩
  | loaderCall reply atCall answers =>
    rcases updated found with ⟨same, next⟩ | ⟨-, old⟩
    · cases same
      cases next
      exact ⟨rfl, Or.inr (Or.inr ⟨_, _, atCall, rfl, answers⟩)⟩
    · exact ⟨rfl, Or.inr (Or.inl old)⟩
  | @answerLoad actor caller _ _ _ _ _ outcome atCall =>
    rcases updated found with ⟨-, impossible⟩ | ⟨different, old⟩
    · cases impossible
    · refine ⟨if_neg fun same => ?_, Or.inr (Or.inl old)⟩
      subst same
      exact different (congrArg (Prod.mk replica) (one_loader reach old atCall))

theorem Since.step {action : ServingAction serving} (reach : Reach (Step serving) (.initial serving registry) lab)
    (since : Since start version replica lab) (names : lab.Names version) (taken : Step serving lab action after) :
    Since start version replica after := by
  have loads := taken.loads replica
  refine ⟨fun id run found => ?_, ?_⟩
  · obtain ⟨silent, before⟩ := taken.loader reach found
    rw [silent, List.append_nil] at loads
    rw [loads]
    rcases before with fresh | same | ⟨earlier, exchange, there, told, answers⟩
    · refine Or.inl fun name mv member => ?_
      rw [fresh] at member
      cases member
    · exact since.runs id run same
    · refine (since.runs id earlier there).imp (fun current name mv member => ?_) fun stale => stale
      rw [told] at member
      rcases List.mem_append.mp member with old | new
      · exact current name mv old
      · obtain rfl := List.mem_singleton.mp new
        cases answers with
        | getModelVersionByAlias told => exact Option.some.inj ((told mv rfl).1.symm.trans names)
  · obtain ⟨older, newer, before, authors, versions⟩ := since.loads
    by_cases silent : noted replica action = []
    · rw [loads, silent, List.append_nil]
      exact since.loads
    · cases taken with
      | @answerLoad actor caller name «alias» past rest fleet outcome atCall ended step =>
        by_cases here : replica = actor
        · subst here
          have added : noted replica (.answerLoad replica caller outcome : ServingAction serving) = [(caller, outcome)] :=
            if_pos rfl
          rw [loads, added]
          rcases since.runs caller _ atCall with current | ⟨stale, unchanged⟩
          · refine ⟨older, newer ++ [(caller, outcome)], by rw [before, List.append_assoc], authors, ?_⟩
            intro id model member
            rcases List.mem_append.mp member with old | new
            · exact versions id model old
            · cases ended with
              | loaded =>
                cases List.mem_singleton.mp new
                exact current.loaded ((sound_of_reach reach).loaders _ _ atCall) rfl
              | raised => cases List.mem_singleton.mp new
          · refine ⟨[(caller, outcome)], [], by rw [unchanged, List.append_nil], ?_, fun _ _ impossible => ?_⟩
            · intro load member
              rw [List.mem_singleton.mp member]
              exact stale
            · cases impossible
        · exact absurd (if_neg here) silent
      | _ => exact absurd rfl silent

theorem since_of_run (replica : Nat) (reach : Reach (Step serving) (.initial serving registry) start)
    (run : Reach (WhileChampion serving version) start lab) : Since start version replica lab := by
  refine run.invariant (Since start version replica) ⟨fun id run found => Or.inr ⟨?_, rfl⟩, [], [], ?_, ?_, ?_⟩ ?_
  · rw [found]
    rfl
  · rw [List.append_nil, List.append_nil]
  · exact List.forall_mem_nil _
  · intro id model impossible
    cases impossible
  · rintro before action after reached since ⟨taken, names⟩
    exact since.step (reach.trans reached.forget_guard) names taken

/-- What was last loaded of some loads that end so. -/
theorem lastLoaded_of_suffix (loads : List LoaderOutcome) {newer : List LoaderOutcome} {model : LoadedModel}
    (member : .loaded model ∈ newer) :
    ∃ last, lastLoaded (loads ++ newer) = some last ∧ .loaded last ∈ newer := by
  have nonempty : newer.filterMap LoaderOutcome.model ≠ [] :=
    List.ne_nil_of_mem (List.mem_filterMap.mpr ⟨_, member, rfl⟩)
  have found := List.getLast?_eq_some_getLast nonempty
  refine ⟨(newer.filterMap LoaderOutcome.model).getLast nonempty, ?_, ?_⟩
  · rw [lastLoaded, List.filterMap_append, List.getLast?_append, found]
    rfl
  · obtain ⟨outcome, listed, isModel⟩ := List.mem_filterMap.mp (List.getLast_mem nonempty)
    cases outcome with
    | raised => cases isModel
    | loaded =>
      cases isModel
      exact listed

/-- The version served after some loads, where the last of them succeeded. -/
theorem after_newer (service : PredictionService) (earlier : List (Nat × LoaderOutcome))
    {newer : List (Nat × LoaderOutcome)} {model : LoadedModel} (member : (id, LoaderOutcome.loaded model) ∈ newer) :
    ∃ author last, (author, LoaderOutcome.loaded last) ∈ newer ∧
      (Api.after service (earlier ++ newer)).version = some last.metadata.version := by
  have listed : LoaderOutcome.loaded model ∈ newer.map Prod.snd := List.mem_map.mpr ⟨_, member, rfl⟩
  obtain ⟨last, isLast, inNewer⟩ := lastLoaded_of_suffix (earlier.map Prod.snd) listed
  obtain ⟨⟨author, outcome⟩, there, same⟩ := List.mem_map.mp inNewer
  cases same
  refine ⟨author, last, there, ?_⟩
  have fresh : ModelCache.current { name := service.name, «alias» := service.alias } = none := rfl
  rw [Api.after, ModelCache.after_version fresh, List.map_append, isLast]
  rfl

/-- Once a thread that started since then has loaded a model and let go of
the lock, the version is served. -/
theorem version_served (reach : Reach (Step serving) (.initial serving registry) start)
    (run : Reach (WhileChampion serving version) start lab) (idle : (start.replicas replica).processes id = .idle)
    {model : LoadedModel} (noted : (id, LoaderOutcome.loaded model) ∈ (lab.replicas replica).shared.loads)
    (free : (lab.replicas replica).shared.server.lock ≠ some id) :
    model.metadata.version = version ∧
      ∃ served, (lab.replicas replica).shared.server.current = some served ∧ served.metadata.version = version := by
  obtain ⟨older, newer, all, authors, versions⟩ := (since_of_run replica reach run).loads
  have absent : ∀ load ∈ (start.replicas replica).shared.loads ++ older, load.1 ≠ id := by
    intro load member same
    rcases List.mem_append.mp member with before | stale
    · have noted := (Api.kept (reach_replica reach replica) id).noted
      rw [idle] at noted
      have listed : load.2 ∈ loadsMade (Thread.idle : ApiThread).past := by
        rw [← noted]
        exact List.mem_map.mpr ⟨load, List.mem_filter.mpr ⟨before, decide_eq_true same⟩, rfl⟩
      cases listed
    · obtain ⟨run, found⟩ := Option.isSome_iff_exists.mp (authors load stale)
      obtain ⟨_, _, _, waits⟩ := awaited_of_reach reach replica load.1 run found
      rw [same, idle] at waits
      cases waits
  obtain ⟨done, settles, current⟩ := (Api.serialized (reach_replica (reach.trans run.forget_guard) replica)).1.current
  obtain ⟨settled, known⟩ : done <+: (lab.replicas replica).shared.loads ∧ (id, LoaderOutcome.loaded model) ∈ done := by
    rcases settles with same | ⟨holder, outcome, same, holds⟩
    · exact ⟨same ▸ List.prefix_rfl, same ▸ noted⟩
    · refine ⟨same ▸ List.prefix_append .., ?_⟩
      rw [same] at noted
      rcases List.mem_append.mp noted with old | new
      · exact old
      · cases List.mem_singleton.mp new
        exact absurd holds free
  rw [all] at settled
  have beyond : (start.replicas replica).shared.loads ++ older <+: done := by
    rcases List.prefix_or_prefix_of_prefix settled (List.prefix_append _ newer) with before | beyond
    · exact absurd rfl (absent _ (before.subset known))
    · exact beyond
  obtain ⟨since, rfl⟩ := beyond
  have later := (List.prefix_append_right_inj _).mp settled
  have mine : (id, LoaderOutcome.loaded model) ∈ since :=
    (List.mem_append.mp known).resolve_left fun before => absent _ before rfl
  refine ⟨versions id model (later.subset mine), ?_⟩
  obtain ⟨author, last, listed, serves⟩ := after_newer serving.service
    ((start.replicas replica).shared.loads ++ older) mine
  rw [ModelCache.version, ← current, Option.map_eq_some_iff] at serves
  obtain ⟨served, found, same⟩ := serves
  exact ⟨served, found, same.trans (versions author last (later.subset listed))⟩

/-- A thread that has ended has let go of the lock, and its loads are noted. -/
theorem ended_noted (reach : Reach (Step serving) (.initial serving registry) lab) {task : ApiTask}
    {past : List (Program.Exchange ServerReply)} {result : Except ServiceError ApiResult} {name «alias» : String}
    {model : LoadedModel} (ended : (lab.replicas replica).processes id = .ended task past (some result))
    (loaded : ⟨.inr (.load name «alias»), LoaderOutcome.loaded model⟩ ∈ past) :
    (id, LoaderOutcome.loaded model) ∈ (lab.replicas replica).shared.loads ∧
      (lab.replicas replica).shared.server.lock ≠ some id := by
  obtain ⟨ordered, secured⟩ := Api.serialized (reach_replica reach replica)
  have leaves := secured id
  rw [ended] at leaves
  refine ⟨?_, (leaves _ (Api.Relies.refl serving.service id _) ordered).free⟩
  have noted := (Api.kept (reach_replica reach replica) id).noted
  rw [ended] at noted
  have listed : LoaderOutcome.loaded model ∈ loadsMade past := List.mem_filterMap.mpr ⟨_, loaded, rfl⟩
  have there := noted ▸ listed
  obtain ⟨⟨author, outcome⟩, member, same⟩ := List.mem_map.mp there
  obtain ⟨inLoads, isAuthor⟩ := List.mem_filter.mp member
  have authored : author = id := of_decide_eq_true isAuthor
  cases same
  exact authored ▸ inLoads

/-- A thread that starts while only this version is served reads no other. -/
theorem reads_of_run {later : ServingLab serving} {asker : Nat}
    (serves : ∀ now, Reach (WhileChampion serving version) lab now →
      ∃ served, (now.replicas replica).shared.server.current = some served ∧ served.metadata.version = version)
    (run : Reach (WhileChampion serving version) lab later) (idle : (lab.replicas replica).processes asker = .idle)
    {model : LoadedModel} (read : some model ∈ modelsRead (lefts ((later.replicas replica).processes asker).past)) :
    model.metadata.version = version := by
  refine run.invariant (fun now => ∀ model,
    some model ∈ modelsRead (lefts ((now.replicas replica).processes asker).past) → model.metadata.version = version)
    (fun model impossible => ?_) ?_ model read
  · rw [idle] at impossible
    cases impossible
  · rintro before action after reached reads ⟨taken, -⟩ model read
    rcases taken.onReplica replica with same | ⟨own, step⟩
    · exact reads model (same ▸ read)
    · rcases ReplicaStep.past step asker with same | ⟨⟨request, reply⟩, extended, performed⟩
      · exact reads model (same ▸ read)
      · rw [extended] at read
        cases request with
        | inr asked =>
          have same := Program.lefts_snoc_inr ((before.replicas replica).processes asker).past asked reply
          exact reads model (same ▸ read)
        | inl asked =>
          have added := Program.lefts_snoc_inl ((before.replicas replica).processes asker).past asked reply
          rw [added, modelsRead, List.filterMap_append] at read
          rcases List.mem_append.mp read with old | new
          · exact reads model old
          · cases asked with
            | readCurrent =>
              obtain ⟨served, current, same⟩ := serves before reached
              have isRead : some model = reply := List.mem_singleton.mp new
              have isServed : some model = some served := isRead.trans (performed.readCurrent.1.trans current)
              cases isServed
              exact same
            | _ => cases new

theorem ended_of_run {task : ApiTask} {past : List (Program.Exchange ServerReply)}
    {result : Option (Except ServiceError ApiResult)} (run : Reach (Step serving) lab after)
    (ended : (lab.replicas replica).processes id = .ended task past result) :
    (after.replicas replica).processes id = .ended task past result := by
  refine run.invariant (fun now => (now.replicas replica).processes id = .ended task past result) ended ?_
  intro before action after _ ended taken
  rcases taken.onReplica replica with same | ⟨own, step⟩
  · rw [same]
    exact ended
  · exact ReplicaStep.ended step ended

/-- **A rollout.** A version is champion from some moment on. Once a thread of
a process that started since then has had a model of its loader and has ended,
that model is this version, the process serves it, and for as long as it stays
champion the process answers no prediction asked for from then on with
another one, although at that moment other threads may have been loading an
older version: a load that was under way cannot undo the rollout. -/
theorem rolled_out (reach : Reach (Step serving) (.initial serving registry) start)
    (run : Reach (WhileChampion serving version) start lab) (idle : (start.replicas replica).processes id = .idle)
    {task : ApiTask} {past : List (Program.Exchange ServerReply)} {result : Except ServiceError ApiResult}
    {name «alias» : String} {model : LoadedModel}
    (ended : (lab.replicas replica).processes id = .ended task past (some result))
    (loaded : ⟨.inr (.load name «alias»), LoaderOutcome.loaded model⟩ ∈ past) :
    model.metadata.version = version ∧
    (∃ served, (lab.replicas replica).shared.server.current = some served ∧ served.metadata.version = version) ∧
    ∀ later asker asked exchanges tid answer, Reach (WhileChampion serving version) lab later →
      (lab.replicas replica).processes asker = .idle →
      (later.replicas replica).processes asker = .ended asked exchanges (some (.ok (ApiTask.predicted tid answer))) →
      asked.Predicts → answer.model.version = version := by
  have serves (now : ServingLab serving) (onward : Reach (WhileChampion serving version) lab now) :
      model.metadata.version = version ∧
        ∃ served, (now.replicas replica).shared.server.current = some served ∧ served.metadata.version = version := by
    have ran : Reach (WhileChampion serving version) start now := run.trans onward
    obtain ⟨noted, free⟩ := ended_noted (reach.trans ran.forget_guard) (ended_of_run onward.forget_guard ended) loaded
    exact version_served reach ran idle noted free
  refine ⟨(serves lab .refl).1, (serves lab .refl).2, ?_⟩
  intro later asker asked exchanges tid answer onward waits answered predicts
  have ran : Reach (WhileChampion serving version) start later := run.trans onward
  have reached := reach.trans ran.forget_guard
  obtain ⟨made, read, same, -⟩ := Api.answer_read (reach_replica reached replica).forget_guard answered predicts
  rw [same]
  refine reads_of_run (fun now onward => (serves now onward).2) onward waits ?_
  rw [answered]
  exact read

/-- The first process serves the version that was just promoted. -/
theorem first_version_rolled_out : ∃ lab : ServingLab firstServing,
    Reach (Step firstServing) (.initial firstServing trainedRegistry) lab ∧
      ∃ served, (lab.replicas 0).shared.server.current = some served ∧ served.metadata.version = "2" := by
  obtain ⟨promoting, promoted⟩ := promotion_reached
  obtain ⟨lab, past, response, run, -, ended, loaded⟩ := refresh_run promoting
  obtain ⟨-, serves, -⟩ := rolled_out promoted run rfl ended loaded
  exact ⟨lab, promoted.trans run.forget_guard, serves⟩

end ServingLab

end Amel
