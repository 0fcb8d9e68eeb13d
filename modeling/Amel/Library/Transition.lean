import Mathlib.Logic.Relation

universe u v w x

namespace Transition

variable {State : Type u} {Action : Type v}

/-- The states a labelled step relation reaches from `origin`, in any
finite number of steps and any order of actions. -/
abbrev Reach (step : State → Action → State → Prop) (origin state : State) : Prop :=
  Relation.ReflTransGen (fun before after => ∃ action, step before action after) origin state

/-- The same steps, each taken only where `allowed` holds of the two states
and the action between them. -/
def Restricted (step allowed : State → Action → State → Prop) : State → Action → State → Prop :=
  fun before action after => step before action after ∧ allowed before action after

/-- The same steps, each taken only where `allowed` holds of the state
before it. Runs of a guarded relation are the runs whose steps all meet
the guard. -/
def Guarded (step : State → Action → State → Prop) (allowed : State → Action → Prop) :
    State → Action → State → Prop :=
  Restricted step fun before action _ => allowed before action

namespace Reach

variable {step allowed : State → Action → State → Prop} {origin state : State}

theorem next {before after : State} (reach : Reach step origin before) (action : Action)
    (taken : step before action after) : Reach step origin after :=
  reach.tail ⟨action, taken⟩

/-- A run that meets a guard is a run. -/
theorem forget_guard (reach : Reach (Restricted step allowed) origin state) : Reach step origin state :=
  Relation.ReflTransGen.mono (fun _ _ ⟨action, taken, _⟩ => ⟨action, taken⟩) _ _ reach

theorem guardTrivially (reach : Reach step origin state) : Reach (Guarded step fun _ _ => True) origin state :=
  Relation.ReflTransGen.mono (fun _ _ ⟨action, taken⟩ => ⟨action, taken, trivial⟩) _ _ reach

/-- What holds at the start and is preserved by every step out of a
reached state holds of every reached state. -/
theorem invariant (reach : Reach step origin state) (holds : State → Prop) (base : holds origin)
    (preserved : ∀ before action after, Reach step origin before → holds before →
      step before action after → holds after) : holds state := by
  induction reach with
  | refl => exact base
  | tail previous taken ih =>
    obtain ⟨action, taken⟩ := taken
    exact preserved _ action _ previous ih taken

/-- A reflexive and transitive relation that every step respects relates
the two ends of every run. -/
theorem relates (reach : Reach step origin state) (related : State → State → Prop)
    (refl : ∀ s, related s s) (trans : ∀ {a b c}, related a b → related b c → related a c)
    (respected : ∀ before action after, step before action after → related before after) :
    related origin state := by
  induction reach with
  | refl => exact refl _
  | tail _ taken ih =>
    obtain ⟨action, taken⟩ := taken
    exact trans ih (respected _ action _ taken)

/-- When each step is matched by steps of another relation, the run is
matched by a run of it. -/
theorem simulates {Other : Type w} {Move : Type x} {move : Other → Move → Other → Prop} (view : State → Other)
    (reach : Reach step origin state)
    (matched : ∀ before action after, step before action after → Reach move (view before) (view after)) :
    Reach move (view origin) (view state) :=
  Relation.ReflTransGen.lift' view (fun _ _ ⟨action, taken⟩ => matched _ action _ taken) _ _ reach

end Reach

/-- A run from `origin` to `state` has passed a state where `holds` did. -/
def Once (step : State → Action → State → Prop) (origin state : State) (holds : State → Prop) : Prop :=
  ∃ moment, Reach step origin moment ∧ Reach step moment state ∧ holds moment

namespace Once

variable {step : State → Action → State → Prop} {origin state after : State} {holds weaker : State → Prop}

theorem now (reach : Reach step origin state) (here : holds state) : Once step origin state holds :=
  ⟨state, reach, .refl, here⟩

theorem later (once : Once step origin state holds) (reach : Reach step state after) :
    Once step origin after holds := by
  obtain ⟨moment, before, since, held⟩ := once
  exact ⟨moment, before, since.trans reach, held⟩

theorem mono (once : Once step origin state holds) (implies : ∀ moment, Reach step origin moment → holds moment →
    weaker moment) : Once step origin state weaker := by
  obtain ⟨moment, before, since, held⟩ := once
  exact ⟨moment, before, since, implies moment before held⟩

end Once

end Transition
