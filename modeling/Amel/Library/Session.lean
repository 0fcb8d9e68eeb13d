import Amel.Library.Program

universe u v w x y z

open Transition

/-- One operator at one machine: at most one program runs at a time. -/
structure Session (State : Type u) (Call : Type v) (Reply : Call → Type w) (Error : Type x) (α : Type y) where
  state : State
  running : Option (Program Call Reply Error α) := none

inductive SessionAction (Request : Type z) {Call : Type v} (Reply : Call → Type w)
  | change
  | start (request : Request)
  | call (exchange : Program.Exchange Reply)
  | finish
  | abort

namespace Session

variable {State : Type u} {Call : Type v} {Reply : Call → Type w} {Error : Type x} {α : Type y} {Request : Type z}
  (interferes : State → State → Prop) (body : Request → Program Call Reply Error α)
  (perform : State → (request : Call) → Reply request → State → Prop)

/-- The programs for any requests one after the other, each to its end or
aborted between two calls; `interferes` is what changes by itself. -/
inductive Step : Session State Call Reply Error α → SessionAction Request Reply →
    Session State Call Reply Error α → Prop
  | change {s now running} : interferes s now → Step ⟨s, running⟩ .change ⟨now, running⟩
  | start {s} (request : Request) : Step ⟨s, none⟩ (.start request) ⟨s, some (body request)⟩
  | call {s ask resume after} (reply : Reply ask) : perform s ask reply after →
      Step ⟨s, some (.call ask resume)⟩ (.call ⟨ask, reply⟩) ⟨after, some (resume reply)⟩
  | «return» {s value} : Step ⟨s, some (.pure value)⟩ .finish ⟨s, none⟩
  | raise {s error} : Step ⟨s, some (.raise error)⟩ .finish ⟨s, none⟩
  | abort {s rest} : Step ⟨s, some rest⟩ .abort ⟨s, none⟩

variable {interferes body perform} {origin session : Session State Call Reply Error α} {inv : State → Prop}
  {allowed : Session State Call Reply Error α → SessionAction Request Reply → Prop}

/-- A fact holds in every state of a guarded run when each program that may
be started keeps it throughout. -/
theorem invariant (refl : ∀ s, interferes s s)
    (trans : ∀ {a b c}, interferes a b → interferes b c → interferes a c)
    (reach : Reach (Guarded (Step interferes body perform) allowed) origin session)
    (base : inv origin.state) (idle : origin.running = none)
    (changes : ∀ {s now}, interferes s now → inv s → inv now)
    (keeps : ∀ {s request}, allowed ⟨s, none⟩ (.start request) → inv s → (body request).Outline interferes
      (fun rest before ask reply after => perform before ask reply after ∧
        allowed ⟨before, some rest⟩ (.call ⟨ask, reply⟩)) inv (fun _ _ => True) s) : inv session.state := by
  let own (session : Session State Call Reply Error α) : Prop := ∀ rest, session.running = some rest →
    rest.Outline interferes (fun rest before ask reply after => perform before ask reply after ∧
      allowed ⟨before, some rest⟩ (.call ⟨ask, reply⟩)) inv (fun _ _ => True) session.state
  refine (reach.invariant (fun session => inv session.state ∧ own session) ⟨base, fun rest runs => ?_⟩ ?_).1
  · rw [idle] at runs
    cases runs
  · rintro before action after - ⟨valid, outlined⟩ ⟨taken, guard⟩
    cases taken with
    | change changed =>
      exact ⟨changes changed valid, fun rest runs => (outlined rest runs).interfered trans changed⟩
    | start request => exact ⟨valid, fun rest runs => by cases runs; exact keeps guard valid⟩
    | call reply performed =>
      obtain ⟨kept, onward⟩ := outlined _ rfl _ (refl _) valid reply _ ⟨performed, guard⟩
      exact ⟨kept, fun rest runs => by cases runs; exact onward⟩
    | «return» | raise | abort => exact ⟨valid, nofun⟩

/-- The run of one program in which `answer` gives every reply, where the
guard allows each of its calls. -/
theorem reach_eval_allowed {answer : State → (ask : Call) → Reply ask × State}
    (performed : ∀ s ask, perform s ask (answer s ask).1 (answer s ask).2) {s : State}
    (reach : Reach (Guarded (Step interferes body perform) allowed) origin ⟨s, none⟩) (request : Request)
    (starts : allowed ⟨s, none⟩ (.start request)) (ends : ∀ session, allowed session .finish)
    (calls : (body request).Throughout answer
      (fun rest now ask => allowed ⟨now, some rest⟩ (.call ⟨ask, (answer now ask).1⟩)) s) :
    Reach (Guarded (Step interferes body perform) allowed) origin ⟨((body request).eval answer s).2, none⟩ := by
  have along (rest : Program Call Reply Error α) (now : State)
      (reach : Reach (Guarded (Step interferes body perform) allowed) origin ⟨now, some rest⟩)
      (calls : rest.Throughout answer
        (fun rest now ask => allowed ⟨now, some rest⟩ (.call ⟨ask, (answer now ask).1⟩)) now) :
      Reach (Guarded (Step interferes body perform) allowed) origin ⟨(rest.eval answer now).2, none⟩ := by
    induction rest generalizing now with
    | pure value => exact reach.next .finish ⟨.return, ends _⟩
    | raise error => exact reach.next .finish ⟨.raise, ends _⟩
    | call ask resume ih =>
      exact ih _ _ (reach.next (.call ⟨ask, _⟩) ⟨.call _ (performed now ask), calls.1⟩) calls.2
  exact along _ s (reach.next (.start request) ⟨.start request, starts⟩) calls

/-- The run of one program in which `answer` gives every reply. -/
theorem reach_eval {answer : State → (ask : Call) → Reply ask × State}
    (performed : ∀ s ask, perform s ask (answer s ask).1 (answer s ask).2) {s : State}
    (reach : Reach (Step interferes body perform) origin ⟨s, none⟩) (request : Request) :
    Reach (Step interferes body perform) origin ⟨((body request).eval answer s).2, none⟩ :=
  (reach_eval_allowed performed reach.guardTrivially request trivial (fun _ => trivial)
    (Program.throughout_of_forall (fun _ _ _ => trivial) _ s)).forget_guard

end Session
