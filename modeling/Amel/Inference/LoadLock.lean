import Amel.Inference.Access

namespace Amel

open Transition (Reach Guarded)

/-- What an exchange does to the lock of the cache. -/
def lockChange : Program.Exchange ServerReply → Option Bool
  | ⟨.inl .acquireLock, _⟩ => some true
  | ⟨.inl .releaseLock, _⟩ => some false
  | _ => none

/-- The thread has taken the lock and not let go of it since. -/
def HoldsLock (past : List (Program.Exchange ServerReply)) : Prop := (past.filterMap lockChange).getLast? = some true

/-- The loader is asked, and the lock let go of, only by a thread that has it. -/
def LockRule (past : List (Program.Exchange ServerReply)) : ServerCall → Prop
  | .inl .releaseLock | .inr (.load _ _) => HoldsLock past
  | _ => True

namespace Api

variable {service : PredictionService} {settings : ApiSettings} {past : List (Program.Exchange ServerReply)}
  {id : Nat} {s now : Api} {fleet : ApiFleet}

theorem holdsLock_acquire (reply : Unit) : HoldsLock (past ++ [⟨.inl .acquireLock, reply⟩]) := by
  rw [HoldsLock, List.filterMap_append]
  exact List.getLast?_concat

/-- An exchange that has nothing to do with the lock. -/
theorem holdsLock_pass (exchange : Program.Exchange ServerReply) (other : lockChange exchange = none) :
    HoldsLock (past ++ [exchange]) ↔ HoldsLock past := by
  have none : [exchange].filterMap lockChange = [] := List.filterMap_cons_none other
  rw [HoldsLock, HoldsLock, List.filterMap_append, none, List.append_nil]

theorem refreshCache_locks : (refreshCache service).Obeys LockRule (fun _ _ => True) past := by
  refine ⟨trivial, fun taken => ⟨trivial, fun current => ⟨?_, fun (outcome : LoaderOutcome) => ?_⟩⟩⟩
  · exact (holdsLock_pass _ rfl).mpr (holdsLock_acquire taken)
  · have inside : HoldsLock (past ++ [⟨.inl .acquireLock, taken⟩] ++ [⟨.inl .readCurrent, current⟩] ++
        [⟨.inr (.load service.name service.alias), outcome⟩]) :=
      (holdsLock_pass _ rfl).mpr ((holdsLock_pass _ rfl).mpr (holdsLock_acquire taken))
    cases outcome with
    | raised error caught =>
      refine ⟨trivial, fun _ => ⟨trivial, fun _ => ⟨?_, fun _ => trivial⟩⟩⟩
      exact (holdsLock_pass _ rfl).mpr ((holdsLock_pass _ rfl).mpr inside)
    | loaded loaded =>
      refine ⟨trivial, fun again => ?_⟩
      have still := (holdsLock_pass ⟨.inl .readCurrent, again⟩ rfl).mpr inside
      show Program.Obeys _ _ (if _ then _ else _) _
      split
      · exact ⟨trivial, fun _ => ⟨(holdsLock_pass _ rfl).mpr still, fun _ => trivial⟩⟩
      · refine ⟨trivial, fun _ => ⟨trivial, fun _ => ⟨trivial, fun _ => ⟨trivial, fun _ => ⟨?_, fun _ => trivial⟩⟩⟩⟩⟩
        have written := (holdsLock_pass ⟨.inl (.writeCurrent loaded), ()⟩ rfl).mpr still
        exact (holdsLock_pass _ rfl).mpr ((holdsLock_pass _ rfl).mpr ((holdsLock_pass _ rfl).mpr written))

theorem refreshRounds_locks (rounds : Nat) :
    (ApiTask.refreshRounds service rounds).Obeys LockRule (fun _ _ => True) past := by
  induction rounds generalizing past with
  | zero => trivial
  | succ rounds ih =>
    refine ⟨trivial, fun (stopped : Bool) => ?_⟩
    cases stopped with
    | true => trivial
    | false => exact refreshCache_locks.bind (fun _ _ _ => trivial) fun _ _ _ => ih

theorem lockRule_of_quiet {request : ServerCall} (quiet : Quiet request) : LockRule past request := by
  cases request with
  | inl request =>
    cases request with
    | releaseLock => exact quiet.elim
    | _ => trivial
  | inr request =>
    cases request with
    | load => exact quiet.elim
    | _ => trivial

theorem body_locks (task : ApiTask) : (task.body service settings).Obeys LockRule (fun _ _ => True) [] := by
  have quietly (uses : (task.body service settings).Uses Quiet) :
      (task.body service settings).Obeys LockRule (fun _ _ => True) [] :=
    uses.obeys fun _ _ => lockRule_of_quiet
  by_cases allowed : task.Authorized settings
  · cases task with
    | loadInitial => exact refreshCache_locks.bind (fun _ _ _ => trivial) fun _ _ _ => trivial
    | refreshLoop rounds => exact refreshRounds_locks rounds
    | refresh token =>
      show Program.Obeys _ _ (ApiTask.refreshEndpoint service settings token) _
      unfold ApiTask.refreshEndpoint
      split
      · trivial
      · exact refreshCache_locks.bind (fun _ _ _ => trivial) fun _ _ _ => ⟨trivial, fun _ => trivial⟩
    | _ => exact allowed.elim
  · by_cases loops : ∃ rounds, task = .refreshLoop rounds
    · obtain ⟨rounds, rfl⟩ := loops
      exact refreshRounds_locks rounds
    · exact quietly (body_quiet allowed fun rounds same => absurd ⟨rounds, same⟩ loops)

/-- What a call does to the lock. -/
theorem Performs.lock {request : ServerCall} {reply : ServerReply request} (performed : Performs id s request reply now) :
    lockChange ⟨request, reply⟩ = none ∧ now.server.lock = s.server.lock ∨
      request = .inl .acquireLock ∧ s.server.lock = none ∧ now.server.lock = some id ∨
      request = .inl .releaseLock ∧ now.server.lock = none := by
  cases performed with
  | service performed _ | notSaved _ performed _ =>
    cases performed with
    | acquireLock free => exact Or.inr (Or.inl ⟨rfl, free, rfl⟩)
    | releaseLock => exact Or.inr (Or.inr ⟨rfl, rfl⟩)
    | _ => exact Or.inl ⟨rfl, rfl⟩
  | _ => exact Or.inl ⟨rfl, rfl⟩

/-- A thread in progress that has taken the lock has it. -/
def Tenure (id : Nat) (s : Api) (thread : ApiThread) : Prop :=
  thread.InProgress → HoldsLock thread.past → s.server.lock = some id

theorem tenure (reach : Reach (Guarded (ApiStep service settings) (Living settings)) .initial fleet) (id : Nat) :
    Tenure id fleet.shared (fleet.processes id) := by
  refine (Fleet.invariant (fun _ => True) (fun id s thread => thread.Follows (answering service settings).body ∧
    Tenure id s thread) reach ⟨trivial, fun id => ⟨trivial, fun _ impossible => ?_⟩⟩ ?_ ?_).2 id |>.2
  · cases impossible
  · exact fun {_ event} => event.elim
  · intro before actor action after next guard taken _ each
    have follows := taken.follows (each actor).1
    obtain ⟨runs, own⟩ := each actor
    have others (other : Nat) := each other
    generalize before.processes actor = thread at taken runs own
    cases taken with
    | start task =>
      refine ⟨trivial, ⟨follows, fun _ impossible => ?_⟩, fun other _ => others other⟩
      cases impossible
    | @call task past ask resume after reply performed =>
      have rule := (Program.Runs.obeys runs (body_locks task)).1
      have holds : HoldsLock past → before.shared.server.lock = some actor := own ⟨_, _, _, rfl⟩
      refine ⟨trivial, ⟨follows, fun _ held => ?_⟩, fun other different => ⟨(others other).1, fun running held => ?_⟩⟩
      · rcases performed.lock with ⟨unchanged, same⟩ | ⟨-, -, taken⟩ | ⟨rfl, -⟩
        · exact same.trans (holds ((holdsLock_pass _ unchanged).mp held))
        · exact taken
        · have released : HoldsLock (past ++ [⟨.inl .releaseLock, reply⟩]) := held
          rw [HoldsLock, List.filterMap_append] at released
          cases (List.getLast?_concat).symm.trans released
      · have mine := (others other).2 running held
        rcases performed.lock with ⟨-, same⟩ | ⟨-, free, -⟩ | ⟨rfl, -⟩
        · exact same.trans mine
        · cases free.symm.trans mine
        · cases (holds rule).symm.trans mine
          exact absurd rfl different
    | «return» | raise =>
      refine ⟨trivial, ⟨follows, fun running _ => ?_⟩, fun other different => ⟨(others other).1, fun running held => ?_⟩⟩
      · obtain ⟨_, _, _, impossible⟩ := running
        cases impossible
      · have mine := (others other).2 running held
        show (before.shared.server.letGo actor).lock = some other
        unfold Server.letGo
        rw [if_neg (fun same => different (Option.some.inj (mine.symm.trans same)))]
        exact mine
    | crash => exact guard.elim

/-- A thread that waits for the loader has the lock. -/
theorem lock_of_loading (reach : Reach (Guarded (ApiStep service settings) (Living settings)) .initial fleet)
    {task : ApiTask} {name «alias» : String} {resume : LoaderOutcome → ApiProgram ApiResult}
    (atCall : fleet.processes id = .running task past (.call (.inr (.load name «alias»)) resume)) :
    fleet.shared.server.lock = some id := by
  have follows := Workload.follows reach (fun _ => trivial) id
  have own := tenure reach id
  rw [atCall] at follows own
  exact own ⟨_, _, _, rfl⟩ (Program.Runs.obeys follows (body_locks task)).1

end Api

end Amel
