import Amel.Inference.OneModel

namespace Amel

open Transition (Reach Guarded)
open Workload (reach_start reach_call)

variable {service : PredictionService} {before after : ServerFleet} {id : Nat} {event : PredictionEvent}

/-- Some committed row has the identifier. -/
def Server.Knows (s : Server) (predictionId : String) : Prop :=
  ∃ id row, (id, row) ∈ s.predictions ∧ row.predictionId = predictionId

/-- An event is handed over where the program of its thread calls for it. -/
theorem ServerStep.publishes {reply : Except Unit Unit}
    (taken : ServerStep service before (.inr (id, .call ⟨.publish event, reply⟩)) after) :
    ∃ request past resume, before.processes id = .running request past (.call (.publish event) resume) := by
  cases taken with
  | process acted =>
    generalize before.processes id = thread at acted
    cases acted with
    | call => exact ⟨_, _, _, rfl⟩

/-- Persist first. Whenever an event is handed over, the thread has had its
answer to the insert of a row with the event's identifier, and if that insert
returned, the row is committed at that moment. -/
theorem PredictionService.persist_first {reply : Except Unit Unit} (store : service.store = true)
    (reach : Reach (ServerStep service) .initial before)
    (taken : ServerStep service before (.inr (id, .call ⟨.publish event, reply⟩)) after) :
    ∃ row saved, (row, saved) ∈ inserts (before.processes id).past ∧ row.predictionId = event.predictionId ∧
      (saved = true → (id, row) ∈ before.shared.predictions) := by
  obtain ⟨request, past, resume, stands⟩ := taken.publishes
  have follows := Workload.follows reach.guardTrivially (fun _ => trivial) id
  have records := PredictionService.records reach id
  rw [stands] at follows records ⊢
  have rule := (Program.Runs.obeys follows (serve_obeys request)).1
  obtain ⟨row, saved, inserted, same⟩ := rule store
  refine ⟨row, saved, inserted, same, ?_⟩
  rintro rfl
  exact records.committed row inserted

/-- A thread whose program calls for it can hand an event over. -/
theorem reach_hands_over {origin : ServerFleet} {s : Server}
    {processes : Nat → Thread ServiceRequest ServiceCall ServiceReply ServiceError ServiceResult}
    {request : ServiceRequest} {past : List (Program.Exchange ServiceReply)} {rest : ServiceProgram ServiceResult}
    {resume : Except Unit Unit → ServiceProgram ServiceResult}
    (reach : Reach (Guarded (ServerStep service) fun _ _ => True) origin
      ⟨s, Function.update processes id (.running request past rest)⟩)
    (calls : rest = .call (.publish event) resume) (reply : Except Unit Unit) :
    ∃ before after, Reach (ServerStep service) origin before ∧
      ServerStep service before (.inr (id, .call ⟨.publish event, reply⟩)) after ∧ before.shared = s := by
  subst calls
  let now : ServerFleet := ⟨s, Function.update processes id (.running request past (.call (.publish event) resume))⟩
  have stands : now.processes id = .running request past (.call (.publish event) resume) :=
    Function.update_self id _ processes
  have acted : (serving service).Act id s (now.processes id) (.call ⟨.publish event, reply⟩)
      { s with handed := s.handed ++ [(id, event)] }
      (.running request (past ++ [⟨.publish event, reply⟩]) (resume reply)) := by
    rw [stands]
    apply Workload.Act.call
    exact .publish reply
  exact ⟨now, _, reach.forget_guard, .process acted, rfl⟩

/-- The first request when its insert goes one way or the other. -/
theorem first_event_handed (saved : Except Unit Unit) : ∃ before after event row,
    Reach (ServerStep wholeService) .initial before ∧
      ServerStep wholeService before
        (.inr (1, .call ⟨.publish event, (Except.ok () : Except Unit Unit)⟩)) after ∧
      before.shared.predictions = if saved.isOk then [(1, row)] else [] := by
  obtain ⟨start, past, reach, -, shared, named⟩ := first_request_computed
  have alone : start.shared.predictions = [] := by rw [shared]
  match saved with
  | .ok () =>
    have inserted := reach_call named rfl (Except.ok () : Except Unit Unit) (.inserted _) trivial
    have stamped := reach_call inserted rfl (⟨0, some 0⟩ : Datetime) (.utcNow _) trivial
    obtain ⟨before, after, reached, taken, same⟩ := reach_hands_over stamped rfl (Except.ok ())
    refine ⟨before, after, _, firstParts.row, reach.trans reached, taken, ?_⟩
    rw [same, alone]
    rfl
  | .error () =>
    have inserted := reach_call named rfl (Except.error () : Except Unit Unit) (.notInserted _) trivial
    have stamped := reach_call inserted rfl (⟨0, some 0⟩ : Datetime) (.utcNow _) trivial
    obtain ⟨before, after, reached, taken, same⟩ := reach_hands_over stamped rfl (Except.ok ())
    refine ⟨before, after, _, firstParts.row, reach.trans reached, taken, ?_⟩
    rw [same, alone]
    rfl

theorem PredictionService.first_event_persisted : ∃ (before after : ServerFleet) (event : PredictionEvent)
    (reply : Except Unit Unit), Reach (ServerStep wholeService) .initial before ∧
      ServerStep wholeService before (.inr (1, .call ⟨.publish event, reply⟩)) after ∧
      ∃ row saved, (row, saved) ∈ inserts (before.processes 1).past ∧ row.predictionId = event.predictionId ∧
        (saved = true → (1, row) ∈ before.shared.predictions) := by
  obtain ⟨before, after, event, -, reach, taken, -⟩ := first_event_handed (.ok ())
  exact ⟨before, after, event, _, reach, taken, persist_first rfl reach taken⟩

/-- A failed insert does not hold the event back. -/
theorem PredictionService.event_without_row : ¬ ∀ (service : PredictionService) (before after : ServerFleet) (id : Nat)
    (event : PredictionEvent) (reply : Except Unit Unit), service.store = true → service.publisher = true →
      Reach (ServerStep service) .initial before →
      ServerStep service before (.inr (id, .call ⟨.publish event, reply⟩)) after →
      before.shared.Knows event.predictionId := by
  intro always
  obtain ⟨before, after, event, row, reach, taken, rows⟩ := first_event_handed (.error ())
  obtain ⟨id, row, member, -⟩ := always wholeService before after 1 event _ rfl rfl reach taken
  rw [rows] at member
  cases member

end Amel
