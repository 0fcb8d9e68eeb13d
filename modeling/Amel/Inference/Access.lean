import Amel.Inference.RefreshOrder

namespace Amel

open Transition (Reach Guarded)

/-- The tasks that may change the served model. -/
def ApiTask.Authorized (settings : ApiSettings) : ApiTask → Prop
  | .loadInitial => True
  | .refreshLoop _ => 0 < settings.modelRefreshSeconds
  | .refresh xAdminToken => xAdminToken = some settings.adminToken
  | _ => False

def taskOf : ApiThread → Option ApiTask
  | .idle => none
  | .running task _ _ | .ended task _ _ => some task

/-- The answers of the loader that a thread has had. -/
def loadsMade (past : List (Program.Exchange ServerReply)) : List LoaderOutcome :=
  past.filterMap fun
    | ⟨.inr (.load _ _), reply⟩ => some (reply : LoaderOutcome)
    | _ => none

theorem ModelCache.after_loaded {cache : ModelCache} (fresh : cache.current = none) {outcomes : List LoaderOutcome}
    {model : LoadedModel} (serves : (cache.after outcomes).current = some model) : .loaded model ∈ outcomes := by
  induction outcomes using List.reverseRecOn with
  | nil =>
    rw [after_nil, fresh] at serves
    cases serves
  | append_singleton outcomes outcome ih =>
    rw [after_snoc] at serves
    rcases (cache.after outcomes).refresh_cases outcome with
      ⟨error, caught, -, done⟩ | ⟨loaded, -, -, done⟩ | ⟨loaded, rfl, -, done⟩
    · rw [done] at serves
      exact List.mem_append_left _ (ih serves)
    · rw [done] at serves
      exact List.mem_append_left _ (ih serves)
    · rw [done] at serves
      cases serves
      exact List.mem_append_right _ (List.mem_singleton.mpr rfl)

namespace Api

variable {service : PredictionService} {settings : ApiSettings} {id : Nat} {s now : Api} {fleet : ApiFleet}
  {request : ServerCall} {reply : ServerReply request}

theorem Performs.loads (performed : Performs id s request reply now) :
    now.loads = s.loads ++ (loadsMade [⟨request, reply⟩]).map fun outcome => (id, outcome) := by
  cases performed with
  | load => rfl
  | _ => exact (List.append_nil _).symm

/-- The loader's answers that are noted for the thread are those it had. -/
def Noted (id : Nat) (s : Api) (past : List (Program.Exchange ServerReply)) : Prop :=
  (s.loads.filter fun load => load.1 = id).map Prod.snd = loadsMade past

theorem Noted.exchange {past : List (Program.Exchange ServerReply)} (noted : Noted id s past)
    (performed : Performs id s request reply now) : Noted id now (past ++ [⟨request, reply⟩]) := by
  have own : (((loadsMade [⟨request, reply⟩]).map fun outcome => (id, outcome)).filter fun load => load.1 = id) =
      (loadsMade [⟨request, reply⟩]).map fun outcome => (id, outcome) := by
    refine List.filter_eq_self.mpr fun load member => ?_
    obtain ⟨outcome, -, rfl⟩ := List.mem_map.mp member
    exact decide_eq_true rfl
  rw [Noted, performed.loads, List.filter_append, List.map_append, noted, own, List.map_map]
  exact (congrArg _ (List.map_id _)).trans (List.filterMap_append ..).symm

theorem Noted.other {past : List (Program.Exchange ServerReply)} {actor : Nat} (noted : Noted id s past)
    (different : id ≠ actor) (performed : Performs actor s request reply now) : Noted id now past := by
  have others : (((loadsMade [⟨request, reply⟩]).map fun outcome => (actor, outcome)).filter fun load => load.1 = id) =
      [] := by
    refine List.filter_eq_nil_iff.mpr fun load member => ?_
    obtain ⟨outcome, -, rfl⟩ := List.mem_map.mp member
    exact fun same => different (of_decide_eq_true same).symm
  rw [Noted, performed.loads, List.filter_append, List.map_append, noted, others]
  exact List.append_nil _

/-- What is known of every thread of a living process. -/
structure Kept (settings : ApiSettings) (id : Nat) (s : Api) (thread : ApiThread) : Prop where
  noted : Noted id s thread.past
  loops : ∀ rounds, taskOf thread = some (.refreshLoop rounds) → 0 < settings.modelRefreshSeconds
  whole : ∀ task past, thread ≠ .ended task past none

theorem kept (reach : Reach (Guarded (ApiStep service settings) (Living settings)) .initial fleet) (id : Nat) :
    Kept settings id fleet.shared (fleet.processes id) := by
  have start : Kept settings id ApiFleet.initial.shared (ApiFleet.initial.processes id) := by
    refine ⟨rfl, fun _ impossible => ?_, fun _ _ impossible => ?_⟩ <;> cases impossible
  refine (Fleet.invariant (fun _ => True) (Kept settings) reach ⟨trivial, fun _ => ⟨rfl, start.2, start.3⟩⟩ ?_ ?_).2 id
  · exact fun {_ event} => event.elim
  · intro before actor action after next guard taken _ each
    have own := each actor
    generalize before.processes actor = thread at taken own
    cases taken with
    | start task =>
      refine ⟨trivial, ⟨own.noted, fun rounds same => ?_, fun _ _ impossible => ?_⟩, fun other _ => each other⟩
      · cases same
        exact guard
      · cases impossible
    | call reply performed =>
      refine ⟨trivial, ⟨own.noted.exchange performed, own.loops, fun _ _ impossible => ?_⟩, fun other different => ?_⟩
      · cases impossible
      · exact ⟨(each other).noted.other different performed, (each other).loops, (each other).whole⟩
    | «return» | raise =>
      refine ⟨trivial, ⟨own.noted, own.loops, fun _ _ impossible => ?_⟩, fun other _ =>
        ⟨(each other).noted, (each other).loops, (each other).whole⟩⟩
      cases impossible
    | crash => exact guard.elim

/-- The loader is asked only for the configured model. -/
def Configured (service : PredictionService) : ServerCall → Prop
  | .inr (.load name «alias») => name = service.name ∧ «alias» = service.alias
  | _ => True

theorem configured_of_quiet (quiet : Quiet request) : Configured service request := by
  cases request with
  | inl => trivial
  | inr request =>
    cases request with
    | load => exact quiet.elim
    | _ => trivial

/-- What a refresh calls. -/
def Refreshes (service : PredictionService) : ServerCall → Prop
  | .inl .acquireLock | .inl .readCurrent | .inl (.writeCurrent _) | .inl .releaseLock => True
  | .inl _ => False
  | .inr (.load name «alias») => name = service.name ∧ «alias» = service.alias
  | .inr _ => True

theorem configured_of_refreshes (refreshes : Refreshes service request) : Configured service request := by
  cases request with
  | inl => trivial
  | inr request =>
    cases request with
    | load => exact refreshes
    | _ => trivial

theorem refreshCache_refreshes : (refreshCache service).Uses (Refreshes service) := by
  refine ⟨trivial, fun _ => ⟨trivial, fun _ => ⟨⟨rfl, rfl⟩, fun (outcome : LoaderOutcome) => ?_⟩⟩⟩
  cases outcome with
  | raised error caught => exact ⟨trivial, fun _ => ⟨trivial, fun _ => ⟨trivial, fun _ => trivial⟩⟩⟩
  | loaded loaded =>
    refine ⟨trivial, fun _ => ?_⟩
    show Program.Uses _ (if _ then _ else _)
    split
    · exact ⟨trivial, fun _ => ⟨trivial, fun _ => trivial⟩⟩
    · exact ⟨trivial, fun _ => ⟨trivial, fun _ => ⟨trivial, fun _ => ⟨trivial, fun _ => ⟨trivial, fun _ => trivial⟩⟩⟩⟩⟩

theorem refreshRounds_refreshes (rounds : Nat) : (ApiTask.refreshRounds service rounds).Uses (Refreshes service) := by
  induction rounds with
  | zero => trivial
  | succ rounds ih =>
    refine ⟨trivial, fun (stopped : Bool) => ?_⟩
    cases stopped with
    | true => trivial
    | false => exact refreshCache_refreshes.bind fun _ => ih

theorem refreshEndpoint_refreshes (token : Option String) :
    (ApiTask.refreshEndpoint service settings token).Uses (Refreshes service) := by
  unfold ApiTask.refreshEndpoint
  split
  · trivial
  · exact refreshCache_refreshes.bind fun _ => ⟨trivial, fun _ => trivial⟩

/-- A task that may not change the model makes only calls that leave it
alone. -/
theorem body_quiet {task : ApiTask} (denied : ¬ task.Authorized settings)
    (loops : ∀ rounds, task = .refreshLoop rounds → 0 < settings.modelRefreshSeconds) :
    (task.body service settings).Uses Quiet := by
  cases task with
  | loadInitial => exact absurd trivial denied
  | refreshLoop rounds => exact absurd (loops rounds rfl) denied
  | delivered err => exact (quiet_of_observes (onDelivery_observes err)).bind fun _ => trivial
  | health => trivial
  | ready => exact (quiet_of_observes readiness_observes).bind fun _ => trivial
  | model => exact quiet_of_observes (modelEndpoint_observes settings)
  | refresh token =>
    show Program.Uses _ (ApiTask.refreshEndpoint service settings token)
    unfold ApiTask.refreshEndpoint
    split
    · trivial
    · rename_i allowed
      exact absurd (not_not.mp allowed) denied
  | predictRaw => exact predictRawEndpoint_quiet
  | predictEntity => exact predictEntityEndpoint_quiet

theorem body_configured (task : ApiTask) : (task.body service settings).Uses (Configured service) := by
  by_cases allowed : task.Authorized settings
  · have refreshes : (task.body service settings).Uses (Refreshes service) := by
      cases task with
      | loadInitial => exact refreshCache_refreshes.bind fun _ => trivial
      | refreshLoop rounds => exact refreshRounds_refreshes rounds
      | refresh token => exact refreshEndpoint_refreshes token
      | _ => exact allowed.elim
    exact refreshes.mono fun request => configured_of_refreshes
  · by_cases loops : ∃ rounds, task = .refreshLoop rounds
    · obtain ⟨rounds, rfl⟩ := loops
      exact (refreshRounds_refreshes rounds).mono fun request => configured_of_refreshes
    · refine (body_quiet allowed fun rounds same => absurd ⟨rounds, same⟩ loops).mono fun request quiet => ?_
      exact configured_of_quiet quiet

/-- The calls of a thread are of the kinds that its task uses. -/
theorem calls_of_task {allowed : ServerCall → Prop} {task : ApiTask}
    (reach : Reach (Guarded (ApiStep service settings) (Living settings)) .initial fleet)
    (given : taskOf (fleet.processes id) = some task) (uses : (task.body service settings).Uses allowed) :
    ∀ exchange ∈ (fleet.processes id).past, allowed exchange.1 := by
  have follows := Workload.follows reach (fun _ => trivial) id
  have whole := (kept reach id).whole
  generalize fleet.processes id = thread at given follows whole
  cases thread with
  | idle => cases given
  | running task past rest =>
    cases given
    exact (uses.of_runs follows).2
  | ended task past result =>
    cases given
    match result with
    | none => exact absurd rfl (whole _ _)
    | some (.ok value) => exact (uses.of_runs follows).2
    | some (.error error) => exact (uses.of_runs follows).2

/-- A thread that has had exchanges has a task. -/
theorem task_of_exchange {thread : ApiThread} {exchange : Program.Exchange ServerReply} (made : exchange ∈ thread.past) :
    ∃ task, taskOf thread = some task := by
  cases thread with
  | idle => cases made
  | running task | ended task => exact ⟨task, rfl⟩

/-- A refresh request without the admin token. -/
theorem refused (reach : Reach (Guarded (ApiStep service settings) (Living settings)) .initial fleet)
    {token : Option String} {past : List (Program.Exchange ServerReply)} {result : Except ServiceError ApiResult}
    (ended : fleet.processes id = .ended (.refresh token) past (some result)) (wrong : token ≠ some settings.adminToken) :
    past = [] ∧ result = .ok (.response { status := 401, body := .detail "invalid or missing X-Admin-Token" }) := by
  have refuses : (ApiTask.refresh token).body service settings =
      .pure (.response { status := 401, body := .detail "invalid or missing X-Admin-Token" }) := by
    show ApiTask.refreshEndpoint service settings token = _
    unfold ApiTask.refreshEndpoint
    exact if_pos wrong
  have follows := Workload.follows reach (fun _ => trivial) id
  rw [ended] at follows
  cases result with
  | ok value =>
    have stopped := Program.Runs.of_stopped (fun _ _ calls => by cases refuses.symm.trans calls) follows
    have same := stopped.2.trans refuses
    cases same
    exact ⟨stopped.1, rfl⟩
  | error error =>
    have stopped := Program.Runs.of_stopped (fun _ _ calls => by cases refuses.symm.trans calls) follows
    cases stopped.2.trans refuses

/-- The served model is one that the loader answered. -/
theorem served_loaded (reach : Reach (Guarded (ApiStep service settings) (Living settings)) .initial fleet)
    {model : LoadedModel} (serves : fleet.shared.server.current = some model) :
    ∃ id, (id, LoaderOutcome.loaded model) ∈ fleet.shared.loads := by
  obtain ⟨done, settles, current⟩ := (serialized reach).1.current
  rw [serves] at current
  obtain ⟨⟨id, answer⟩, listed, isModel⟩ := List.mem_map.mp (ModelCache.after_loaded rfl current.symm)
  cases isModel
  rcases settles with all | ⟨holder, outcome, all, -⟩
  · exact ⟨id, all ▸ listed⟩
  · exact ⟨id, all ▸ List.mem_append_left _ listed⟩

/-- **Who may change the model.** Throughout every run of the process: the
served model is what the loader answered to a thread that was asking for the
configured name and alias in a task that may change the model (start-up, the
refresh loop of a process with a period, a refresh request with the admin
token); a thread with any other task makes no call that touches the model,
its lock or the loader; and a refresh request without the token is answered
401 without a single call. -/
theorem served_authorized (reach : Reach (Guarded (ApiStep service settings) (Living settings)) .initial fleet) :
    (∀ model, fleet.shared.server.current = some model → ∃ id task, taskOf (fleet.processes id) = some task ∧
      task.Authorized settings ∧ ⟨.inr (.load service.name service.alias), LoaderOutcome.loaded model⟩ ∈
        (fleet.processes id).past) ∧
    (∀ id task, taskOf (fleet.processes id) = some task → ¬ task.Authorized settings →
      ∀ exchange ∈ (fleet.processes id).past, Quiet exchange.1) ∧
    ∀ id token past result, fleet.processes id = .ended (.refresh token) past (some result) →
      token ≠ some settings.adminToken → past = [] ∧
        result = .ok (.response { status := 401, body := .detail "invalid or missing X-Admin-Token" }) := by
  have denied (id : Nat) (task : ApiTask) (given : taskOf (fleet.processes id) = some task)
      (denied : ¬ task.Authorized settings) : ∀ exchange ∈ (fleet.processes id).past, Quiet exchange.1 := by
    refine calls_of_task reach given (body_quiet denied fun rounds same => ?_)
    exact (kept reach id).loops rounds (same ▸ given)
  refine ⟨fun model serves => ?_, denied, fun id token past result ended wrong => ?_⟩
  · obtain ⟨id, known⟩ := served_loaded reach serves
    have made : LoaderOutcome.loaded model ∈ loadsMade (fleet.processes id).past := by
      rw [← (kept reach id).noted]
      exact List.mem_map.mpr ⟨_, List.mem_filter.mpr ⟨known, decide_eq_true rfl⟩, rfl⟩
    obtain ⟨⟨request, reply⟩, member, isLoad⟩ := List.mem_filterMap.mp made
    obtain ⟨task, given⟩ := task_of_exchange member
    refine ⟨id, task, given, ?_, ?_⟩
    · by_contra other
      have quiet := denied id task given other _ member
      cases request with
      | inl => cases isLoad
      | inr request =>
        cases request with
        | load => exact quiet
        | _ => cases isLoad
    · have configured := calls_of_task reach given (body_configured task) _ member
      cases request with
      | inl => cases isLoad
      | inr request =>
        cases request with
        | load name «alias» =>
          obtain ⟨rfl, rfl⟩ := configured
          cases isLoad
          exact member
        | _ => cases isLoad
  · exact refused reach ended wrong

theorem first_refresh_authorized : ∃ fleet : ApiFleet,
    Reach (Guarded (ApiStep wholeService {}) (Living {})) .initial fleet ∧
      fleet.shared.server.current = some servedModel ∧ ∃ id task, taskOf (fleet.processes id) = some task ∧
        task.Authorized {} := by
  obtain ⟨past, reach⟩ := first_refresh_reached
  obtain ⟨loaded, -⟩ := served_authorized reach
  obtain ⟨id, task, given, authorized, -⟩ := loaded servedModel rfl
  exact ⟨_, reach, rfl, id, task, given, authorized⟩

end Api

end Amel
