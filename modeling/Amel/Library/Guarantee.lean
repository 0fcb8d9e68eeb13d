import Amel.Library.Threads

universe u v w x y z a b

open Transition

namespace Program

variable {Call : Type u} {Reply : Call → Type v} {Error : Type w} {α β : Type x} {State : Type y}

/-- While between its steps others make the changes of `rely`, each call of
the program keeps `inv` and changes no more than `guar` says, and where the
program ends `post` holds. -/
def Secures (rely guar : State → State → Prop) (inv : State → Prop)
    (perform : State → (request : Call) → Reply request → State → Prop) (post : Except Error α → State → Prop) :
    Program Call Reply Error α → State → Prop
  | pure value, s => ∀ now, rely s now → inv now → post (.ok value) now
  | raise error, s => ∀ now, rely s now → inv now → post (.error error) now
  | call request resume, s => ∀ now, rely s now → inv now → ∀ reply after, perform now request reply after →
      (guar now after ∧ inv after) ∧ (resume reply).Secures rely guar inv perform post after

section Secures

variable {rely guar : State → State → Prop} {inv : State → Prop}
  {perform : State → (request : Call) → Reply request → State → Prop} {post : Except Error α → State → Prop}
  {program : Program Call Reply Error α} {s now : State}

theorem Secures.interfered (trans : ∀ {a b c}, rely a b → rely b c → rely a c)
    (secures : program.Secures rely guar inv perform post s) (changed : rely s now) :
    program.Secures rely guar inv perform post now := by
  cases program with
  | pure | raise => exact fun later changes => secures later (trans changed changes)
  | call => exact fun later changes => secures later (trans changed changes)

theorem Secures.bind {next : α → Program Call Reply Error β} {last : Except Error β → State → Prop}
    (refl : ∀ s, rely s s) (valid : inv s) (first : program.Secures rely guar inv perform post s)
    (raises : ∀ error now, inv now → post (.error error) now → last (.error error) now)
    (goesOn : ∀ value now, inv now → post (.ok value) now → (next value).Secures rely guar inv perform last now) :
    (program.bind next).Secures rely guar inv perform last s := by
  induction program generalizing s with
  | pure value => exact goesOn value s valid (first s (refl s) valid)
  | raise error => exact fun now changed validNow => raises error now validNow (first now changed validNow)
  | call request resume ih =>
    intro now changed validNow reply after performed
    obtain ⟨⟨within, kept⟩, rest⟩ := first now changed validNow reply after performed
    exact ⟨⟨within, kept⟩, ih reply kept rest⟩

/-- A program whose calls are all of a kind that keeps everything. -/
theorem Uses.secures {allowed : Call → Prop} {holds : State → Prop} (uses : program.Uses allowed)
    (stable : ∀ {a b}, rely a b → holds a → holds b)
    (kept : ∀ {before request reply after}, allowed request → perform before request reply after →
      inv before → holds before → (guar before after ∧ inv after) ∧ holds after) (base : holds s) :
    program.Secures rely guar inv perform (fun _ => holds) s := by
  induction program generalizing s with
  | pure | raise => exact fun now changed _ => stable changed base
  | call request resume ih =>
    intro now changed valid reply after performed
    obtain ⟨within, holdsAfter⟩ := kept uses.1 performed valid (stable changed base)
    exact ⟨within, ih reply (uses.2 reply) holdsAfter⟩

end Secures

end Program

namespace Workload

variable {Id : Type z} {Shared : Type a} {Request : Type u} {Call : Type v} {Reply : Call → Type w} {Error : Type x}
  {α : Type y} {Event : Type b} [DecidableEq Id] {workload : Workload Id Shared Request Call Reply Error α}
  (rely : Id → Shared → Shared → Prop) (inv : Shared → Prop) (outside : Id → Shared → Prop)
  (post : Id → Request → Except Error α → Shared → Prop)

/-- A thread makes the changes that all other threads rely on. -/
def Guarantees (id : Id) (before after : Shared) : Prop := ∀ other, other ≠ id → rely other before after

/-- What is known of a thread among the others. -/
def Secured (workload : Workload Id Shared Request Call Reply Error α) (id : Id) (s : Shared) :
    Thread Request Call Reply Error α → Prop
  | .idle => outside id s
  | .running request _ rest =>
    rest.Secures (rely id) (Guarantees rely id) inv (workload.perform id) (post id request) s
  | .ended request _ (some result) => ∀ now, rely id s now → inv now → post id request result now
  | .ended _ _ none => True

variable {rely inv outside post} {environment : Shared → Event → Shared → Prop}
  {allowed : Fleet Id Shared (Thread Request Call Reply Error α) → Event ⊕ Id × ThreadAction Request Reply → Prop}
  {origin fleet : Fleet Id Shared (Thread Request Call Reply Error α)}

omit [DecidableEq Id] in
theorem Secured.interfered {id : Id} {s now : Shared} {thread : Thread Request Call Reply Error α}
    (trans : ∀ {a b c}, rely id a b → rely id b c → rely id a c)
    (stable : ∀ {a b}, rely id a b → outside id a → outside id b)
    (secured : workload.Secured rely inv outside post id s thread) (changed : rely id s now) :
    workload.Secured rely inv outside post id now thread := by
  cases thread with
  | idle => exact stable changed secured
  | running request past rest => exact Program.Secures.interfered trans secured changed
  | ended request past result =>
    cases result with
    | none => trivial
    | some result => exact fun later changes => secured later (trans changed changes)

/-- When the program for every request secures its part while the others do
no more than it relies on, and the end of a thread disturbs nobody, the
invariant holds throughout and every thread ends as its part says. -/
theorem secured (reach : Reach (Guarded (Fleet.Step environment workload.Act) allowed) origin fleet)
    (valid : inv origin.shared) (idle : ∀ id, origin.processes id = .idle ∧ outside id origin.shared)
    (refl : ∀ id s, rely id s s) (trans : ∀ id {a b c}, rely id a b → rely id b c → rely id a c)
    (stable : ∀ id {a b}, rely id a b → outside id a → outside id b)
    (changes : ∀ {s event after}, environment s event after → inv s → inv after ∧ ∀ id, rely id s after)
    (starts : ∀ {id s} request, outside id s → inv s → (workload.body request).Secures (rely id)
      (Guarantees rely id) inv (workload.perform id) (post id request) s)
    (concludes : ∀ {id request result s}, inv s → post id request result s →
      inv (workload.conclude id s) ∧ ∀ other, rely other s (workload.conclude id s))
    (cutOff : ∀ {before id}, allowed before (.inr (id, .crash)) → inv before.shared →
      inv (workload.conclude id before.shared) ∧ ∀ other, rely other before.shared (workload.conclude id before.shared)) :
    inv fleet.shared ∧ ∀ id, workload.Secured rely inv outside post id fleet.shared (fleet.processes id) := by
  have others {s after : Shared} {processes : Id → Thread Request Call Reply Error α} {other : Id}
      (each : ∀ other, workload.Secured rely inv outside post other s (processes other))
      (changed : rely other s after) : workload.Secured rely inv outside post other after (processes other) :=
    (each other).interfered (trans other) (stable other) changed
  refine Fleet.invariant inv (workload.Secured rely inv outside post) reach ⟨valid, fun id => ?_⟩ ?_ ?_
  · rw [(idle id).1]
    exact (idle id).2
  · intro before event after _ happened keeps each
    obtain ⟨kept, changed⟩ := changes happened keeps
    exact ⟨kept, fun id => others each (changed id)⟩
  · intro before id action after thread guard taken keeps each
    have own := each id
    generalize before.processes id = now at taken own
    cases taken with
    | start request => exact ⟨keeps, starts request own keeps, fun other _ => each other⟩
    | call reply performed =>
      obtain ⟨⟨within, kept⟩, rest⟩ := own _ (refl id _) keeps reply _ performed
      exact ⟨kept, rest, fun other different => others each (within other different)⟩
    | «return» | raise =>
      obtain ⟨kept, changed⟩ := concludes keeps (own _ (refl id _) keeps)
      exact ⟨kept, fun later changes => own later (trans id (changed id) changes),
        fun other _ => others each (changed other)⟩
    | crash =>
      obtain ⟨kept, changed⟩ := cutOff guard keeps
      exact ⟨kept, trivial, fun other _ => others each (changed other)⟩

end Workload
