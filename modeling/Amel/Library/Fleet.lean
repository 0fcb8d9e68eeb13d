import Mathlib.Logic.Function.Basic
import Amel.Library.Transition

universe u v w x y

open Transition

/-- Processes under names, each with a state of its own, over one shared
state that an environment changes as well. -/
structure Fleet (Id : Type u) (Shared : Type v) (Process : Type w) where
  shared : Shared
  processes : Id → Process

namespace Fleet

variable {Id : Type u} {Shared : Type v} {Process : Type w} {Event : Type x} {Action : Type y} [DecidableEq Id]
  (environment : Shared → Event → Shared → Prop) (act : Id → Shared → Process → Action → Shared → Process → Prop)

/-- One step of the environment or of one process. Any order is possible. -/
inductive Step : Fleet Id Shared Process → Event ⊕ Id × Action → Fleet Id Shared Process → Prop
  | environment {fleet event after} : environment fleet.shared event after →
      Step fleet (.inl event) { fleet with shared := after }
  | process {fleet id action after process} : act id fleet.shared (fleet.processes id) action after process →
      Step fleet (.inr (id, action)) ⟨after, Function.update fleet.processes id process⟩

variable {environment act}
  {allowed : Fleet Id Shared Process → Event ⊕ Id × Action → Fleet Id Shared Process → Prop}
  {origin fleet : Fleet Id Shared Process} (global : Shared → Prop) (own : Id → Shared → Process → Prop)

/-- The states of the shared side and of one process that the process
reaches alone, by actions of a kind. -/
abbrev Alone (act : Id → Shared → Process → Action → Shared → Process → Prop) (kind : Action → Prop) (id : Id) :
    Shared × Process → Shared × Process → Prop :=
  Relation.ReflTransGen fun before after =>
    ∃ action, act id before.1 before.2 action after.1 after.2 ∧ kind action

omit [DecidableEq Id] in
theorem Alone.next {kind : Action → Prop} {id : Id} {before : Shared × Process} {shared after : Shared}
    {process next : Process} {action : Action} (alone : Alone act kind id before (shared, process))
    (taken : act id shared process action after next) (isKind : kind action) :
    Alone act kind id before (after, next) :=
  alone.tail ⟨action, taken, isKind⟩

omit [DecidableEq Id] in
theorem Alone.mono {kind wider : Action → Prop} {id : Id} {before after : Shared × Process}
    (weaker : ∀ action, kind action → wider action) (alone : Alone act kind id before after) :
    Alone act wider id before after :=
  Relation.ReflTransGen.mono (fun _ _ ⟨action, taken, isKind⟩ => ⟨action, taken, weaker action isKind⟩) _ _ alone

/-- The fleet follows a step of one process. -/
theorem reach_act {id : Id} {shared after : Shared} {processes : Id → Process} {process next : Process}
    {action : Action}
    (reach : Reach (Restricted (Step environment act) allowed) origin ⟨shared, Function.update processes id process⟩)
    (taken : act id shared process action after next)
    (guard : allowed ⟨shared, Function.update processes id process⟩ (.inr (id, action))
      ⟨after, Function.update processes id next⟩) :
    Reach (Restricted (Step environment act) allowed) origin ⟨after, Function.update processes id next⟩ := by
  have here : act id shared (Function.update processes id process id) action after next := by
    rwa [Function.update_self]
  have stepped : Step environment act ⟨shared, Function.update processes id process⟩ (.inr (id, action))
      ⟨after, Function.update (Function.update processes id process) id next⟩ := .process here
  rw [Function.update_idem] at stepped
  exact reach.next (.inr (id, action)) ⟨stepped, guard⟩

/-- Another process still stands where it stood. -/
theorem reach_other {id other : Id} {shared : Shared} {processes : Id → Process} {process : Process}
    (reach : Reach (Restricted (Step environment act) allowed) origin ⟨shared, Function.update processes id process⟩)
    (different : other ≠ id) :
    Reach (Restricted (Step environment act) allowed) origin
      ⟨shared, Function.update (Function.update processes id process) other (processes other)⟩ := by
  have stands : Function.update processes id process other = processes other :=
    Function.update_of_ne different process processes
  rwa [← stands, Function.update_eq_self]

/-- What a process can do alone it can do in the fleet, the others standing
still, if the guard allows that kind of action. -/
theorem reach_alone {kind : Action → Prop} {id : Id} {shared after : Shared} {processes : Id → Process}
    {process next : Process}
    (reach : Reach (Restricted (Step environment act) allowed) origin ⟨shared, Function.update processes id process⟩)
    (alone : Alone act kind id (shared, process) (after, next))
    (allows : ∀ fleet action later, kind action → allowed fleet (.inr (id, action)) later) :
    Reach (Restricted (Step environment act) allowed) origin ⟨after, Function.update processes id next⟩ := by
  have along (reached : Shared × Process) (path : Alone act kind id (shared, process) reached) :
      Reach (Restricted (Step environment act) allowed) origin
        ⟨reached.1, Function.update processes id reached.2⟩ := by
    induction path with
    | refl => exact reach
    | tail path taken ih =>
      obtain ⟨action, happened, isKind⟩ := taken
      exact reach_act ih happened (allows _ action _ isKind)
  exact along (after, next) alone

/-- A fact about the shared state and a fact about each process beside it
hold throughout every guarded run when each step keeps them: the step of a
process renews its own fact and leaves those of the others standing. -/
theorem invariant (reach : Reach (Restricted (Step environment act) allowed) origin fleet)
    (base : global origin.shared ∧ ∀ id, own id origin.shared (origin.processes id))
    (environmentKeeps : ∀ {before event after}, allowed before (.inl event) { before with shared := after } →
      environment before.shared event after → global before.shared →
      (∀ id, own id before.shared (before.processes id)) → global after ∧ ∀ id, own id after (before.processes id))
    (processKeeps : ∀ {before id action after process},
      allowed before (.inr (id, action)) ⟨after, Function.update before.processes id process⟩ →
      act id before.shared (before.processes id) action after process → global before.shared →
      (∀ other, own other before.shared (before.processes other)) →
      global after ∧ own id after process ∧ ∀ other, other ≠ id → own other after (before.processes other)) :
    global fleet.shared ∧ ∀ id, own id fleet.shared (fleet.processes id) := by
  refine reach.invariant (fun f => global f.shared ∧ ∀ id, own id f.shared (f.processes id)) base ?_
  rintro before action after - ⟨shared, each⟩ ⟨taken, guard⟩
  cases taken with
  | environment happened => exact @environmentKeeps before _ _ guard happened shared each
  | process happened =>
    rename_i id _ _ _
    obtain ⟨kept, renewed, others⟩ := processKeeps guard happened shared each
    refine ⟨kept, fun other => ?_⟩
    by_cases same : other = id
    · subst same
      simpa only [Function.update_self] using renewed
    · simpa only [Function.update_of_ne same] using others other same

end Fleet
