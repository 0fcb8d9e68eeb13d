import Amel.Library.Fleet
import Amel.Library.Program

universe u v w x y z a b

open Transition

/-- One execution of a program for a request, with the exchanges it had so
far. `ended past none` is an execution that was cut off. -/
inductive Thread (Request : Type u) (Call : Type v) (Reply : Call → Type w) (Error : Type x) (α : Type y)
  | idle
  | running (request : Request) (past : List (Program.Exchange Reply)) (rest : Program Call Reply Error α)
  | ended (request : Request) (past : List (Program.Exchange Reply)) (result : Option (Except Error α))

inductive ThreadAction (Request : Type u) {Call : Type v} (Reply : Call → Type w)
  | start (request : Request)
  | call (exchange : Program.Exchange Reply)
  | finish
  | crash

/-- The program run for each request, what its calls do to the shared state,
and what is noted there when a thread ends. -/
structure Workload (Id : Type z) (Shared : Type a) (Request : Type u) (Call : Type v) (Reply : Call → Type w)
    (Error : Type x) (α : Type y) where
  body : Request → Program Call Reply Error α
  perform : Id → Shared → (request : Call) → Reply request → Shared → Prop
  conclude : Id → Shared → Shared

namespace Thread

variable {Request : Type u} {Call : Type v} {Reply : Call → Type w} {Error : Type x} {α : Type y}

def past : Thread Request Call Reply Error α → List (Program.Exchange Reply)
  | idle => []
  | running _ past _ | ended _ past _ => past

/-- The thread has started and not ended. -/
def InProgress (thread : Thread Request Call Reply Error α) : Prop :=
  ∃ request past rest, thread = running request past rest

/-- The thread stands where the program for its request stands after the
exchanges. -/
def Follows (body : Request → Program Call Reply Error α) : Thread Request Call Reply Error α → Prop
  | idle | ended _ _ none => True
  | running request past rest => (body request).Runs past rest
  | ended request past (some (.ok value)) => (body request).Runs past (.pure value)
  | ended request past (some (.error error)) => (body request).Runs past (.raise error)

end Thread

namespace Workload

variable {Id : Type z} {Shared : Type a} {Request : Type u} {Call : Type v} {Reply : Call → Type w} {Error : Type x}
  {α : Type y} {Event : Type b} (workload : Workload Id Shared Request Call Reply Error α)

inductive Act (id : Id) : Shared → Thread Request Call Reply Error α → ThreadAction Request Reply →
    Shared → Thread Request Call Reply Error α → Prop
  | start {s} (request : Request) :
      Act id s .idle (.start request) s (.running request [] (workload.body request))
  | call {s request past ask resume after} (reply : Reply ask) : workload.perform id s ask reply after →
      Act id s (.running request past (.call ask resume)) (.call ⟨ask, reply⟩) after
        (.running request (past ++ [⟨ask, reply⟩]) (resume reply))
  | «return» {s request past value} :
      Act id s (.running request past (.pure value)) .finish (workload.conclude id s)
        (.ended request past (some (.ok value)))
  | raise {s request past error} :
      Act id s (.running request past (.raise error)) .finish (workload.conclude id s)
        (.ended request past (some (.error error)))
  | crash {s request past rest} :
      Act id s (.running request past rest) .crash (workload.conclude id s) (.ended request past none)

variable {workload} {id : Id} {s after : Shared} {thread next : Thread Request Call Reply Error α}
  {action : ThreadAction Request Reply}

theorem Act.follows (taken : workload.Act id s thread action after next) (follows : thread.Follows workload.body) :
    next.Follows workload.body := by
  cases taken with
  | start => exact .start
  | call reply => exact .answer reply follows
  | «return» => exact follows
  | raise => exact follows
  | crash => trivial

/-- A step adds at most one exchange, and that one just happened. -/
theorem Act.past (taken : workload.Act id s thread action after next) :
    next.past = thread.past ∨ ∃ exchange, next.past = thread.past ++ [exchange] ∧ thread.InProgress ∧
      workload.perform id s exchange.1 exchange.2 after := by
  cases taken with
  | call reply performed => exact Or.inr ⟨_, rfl, ⟨_, _, _, rfl⟩, performed⟩
  | _ => exact Or.inl rfl

section Fleet

variable [DecidableEq Id] {environment : Shared → Event → Shared → Prop}
  {allowed : Fleet Id Shared (Thread Request Call Reply Error α) → Event ⊕ Id × ThreadAction Request Reply →
    Fleet Id Shared (Thread Request Call Reply Error α) → Prop}
  {origin fleet : Fleet Id Shared (Thread Request Call Reply Error α)}

/-- Every thread follows its program. -/
theorem follows (reach : Reach (Restricted (Fleet.Step environment workload.Act) allowed) origin fleet)
    (base : ∀ id, (origin.processes id).Follows workload.body) (id : Id) :
    (fleet.processes id).Follows workload.body := by
  refine (Fleet.invariant (fun _ => True) (fun _ _ thread => thread.Follows workload.body) reach ⟨trivial, base⟩
    ?_ ?_).2 id
  · exact fun _ _ _ each => ⟨trivial, each⟩
  · exact fun {before id} _ _ _ _ taken _ each => ⟨trivial, taken.follows (each id), fun other _ => each other⟩

/-- Between two states of the fleet the thread `id`, in progress, had this
exchange. -/
def Happened (workload : Workload Id Shared Request Call Reply Error α)
    (step : Fleet Id Shared (Thread Request Call Reply Error α) → Event ⊕ Id × ThreadAction Request Reply →
      Fleet Id Shared (Thread Request Call Reply Error α) → Prop)
    (id : Id) (exchange : Program.Exchange Reply) (origin fleet : Fleet Id Shared (Thread Request Call Reply Error α)) :
    Prop :=
  ∃ before now, Reach step origin before ∧ (before.processes id).InProgress ∧
    workload.perform id before.shared exchange.1 exchange.2 now.shared ∧ Reach step before now ∧ Reach step now fleet

/-- What a thread that had not started recorded since, happened since. -/
theorem happened (reach : Reach (Restricted (Fleet.Step environment workload.Act) allowed) origin fleet)
    (idle : origin.processes id = .idle) {exchange : Program.Exchange Reply}
    (made : exchange ∈ (fleet.processes id).past) :
    workload.Happened (Restricted (Fleet.Step environment workload.Act) allowed) id exchange origin fleet := by
  induction reach with
  | refl => rw [idle] at made; cases made
  | @tail before now previous step ih =>
    have earlier (old : exchange ∈ (before.processes id).past) :
        workload.Happened (Restricted (Fleet.Step environment workload.Act) allowed) id exchange origin now := by
      obtain ⟨first, second, reached, running, performed, through, onward⟩ := ih old
      exact ⟨first, second, reached, running, performed, through, onward.tail step⟩
    obtain ⟨action, taken, guard⟩ := step
    cases taken with
    | environment => exact earlier made
    | @process actor action shared process acted =>
      by_cases same : id = actor
      · subst same
        simp only [Function.update_self] at made
        rcases acted.past with unchanged | ⟨new, extended, running, performed⟩
        · exact earlier (unchanged ▸ made)
        · rw [extended] at made
          rcases List.mem_append.mp made with old | now
          · exact earlier old
          · obtain rfl := List.mem_singleton.mp now
            exact ⟨before, _, previous, running, performed, .single ⟨_, .process acted, guard⟩, .refl⟩
      · simp only [Function.update_of_ne same] at made
        exact earlier made

section Reach

variable {s after : Shared} {processes : Id → Thread Request Call Reply Error α} {request : Request}
  {past : List (Program.Exchange Reply)} {rest : Program Call Reply Error α}

theorem reach_start (reach : Reach (Restricted (Fleet.Step environment workload.Act) allowed) origin
      ⟨s, Function.update processes id .idle⟩) (request : Request)
    (guard : allowed ⟨s, Function.update processes id .idle⟩ (.inr (id, .start request))
      ⟨s, Function.update processes id (.running request [] (workload.body request))⟩) :
    Reach (Restricted (Fleet.Step environment workload.Act) allowed) origin
      ⟨s, Function.update processes id (.running request [] (workload.body request))⟩ :=
  Fleet.reach_act reach (.start request) guard

theorem reach_call (reach : Reach (Restricted (Fleet.Step environment workload.Act) allowed) origin
      ⟨s, Function.update processes id (.running request past rest)⟩)
    {ask : Call} {resume : Reply ask → Program Call Reply Error α} (atCall : rest = .call ask resume) (reply : Reply ask)
    (performed : workload.perform id s ask reply after)
    (guard : allowed ⟨s, Function.update processes id (.running request past rest)⟩ (.inr (id, .call ⟨ask, reply⟩))
      ⟨after, Function.update processes id (.running request (past ++ [⟨ask, reply⟩]) (resume reply))⟩) :
    Reach (Restricted (Fleet.Step environment workload.Act) allowed) origin
      ⟨after, Function.update processes id (.running request (past ++ [⟨ask, reply⟩]) (resume reply))⟩ := by
  subst atCall
  exact Fleet.reach_act reach (.call reply performed) guard

theorem reach_return (reach : Reach (Restricted (Fleet.Step environment workload.Act) allowed) origin
      ⟨s, Function.update processes id (.running request past rest)⟩) {value : α} (atValue : rest = .pure value)
    (guard : allowed ⟨s, Function.update processes id (.running request past rest)⟩ (.inr (id, .finish))
      ⟨workload.conclude id s, Function.update processes id (.ended request past (some (.ok value)))⟩) :
    Reach (Restricted (Fleet.Step environment workload.Act) allowed) origin
      ⟨workload.conclude id s, Function.update processes id (.ended request past (some (.ok value)))⟩ := by
  subst atValue
  exact Fleet.reach_act reach .return guard

theorem reach_crash (reach : Reach (Restricted (Fleet.Step environment workload.Act) allowed) origin
      ⟨s, Function.update processes id (.running request past rest)⟩)
    (guard : allowed ⟨s, Function.update processes id (.running request past rest)⟩ (.inr (id, .crash))
      ⟨workload.conclude id s, Function.update processes id (.ended request past none)⟩) :
    Reach (Restricted (Fleet.Step environment workload.Act) allowed) origin
      ⟨workload.conclude id s, Function.update processes id (.ended request past none)⟩ :=
  Fleet.reach_act reach .crash guard

end Reach

end Fleet

end Workload
