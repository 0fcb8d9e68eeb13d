import Amel.Inference.Answers
import Amel.Inference.RefreshOrder

namespace Amel

open Transition (Reach Guarded)
open Program (lefts)

/-- The publisher as `degraded` saw it while it does not fail: no failure yet,
a delivery since the last one, or the last one out of the window. -/
inductive Delivers (past : List (Program.Exchange ServerReply)) : Prop
  | never : ⟨.inr .readDeliveryErrorAt, (none : Option Python.Double)⟩ ∈ past → Delivers past
  | recovered {errAt okAt : Python.Double} : ⟨.inr .readDeliveryErrorAt, some errAt⟩ ∈ past →
      ⟨.inr .readDeliveryOkAt, some okAt⟩ ∈ past → errAt.lt okAt = true → Delivers past
  | stale {errAt now : Python.Double} : ⟨.inr .readDeliveryErrorAt, some errAt⟩ ∈ past →
      ⟨.inr .monotonic, now⟩ ∈ past → (0x403E000000000000 : Python.Double).lt (now.sub errAt) = true → Delivers past

/-- The reasons that a probe gives, each with what it has met. -/
inductive Unready (service : PredictionService) (past : List (Program.Exchange ServerReply)) : String → Prop
  | noModel {error : Option String} : ⟨.inl .readCurrent, (none : Option LoadedModel)⟩ ∈ past →
      ⟨.inr .readLastError, error⟩ ∈ past →
      Unready service past ("no model loaded: " ++ (truthy error).getD "initial load pending")
  | noFeatures : service.features = true → ⟨.inr .health, false⟩ ∈ past → Unready service past "feast-server unreachable"
  | noStore {error : Option String} : service.store = true → ⟨.inr .ping, false⟩ ∈ past →
      ⟨.inr .readStoreError, error⟩ ∈ past → Unready service past ("database unreachable: " ++ formatted error)
  | failing {errAt now : Python.Double} {error : Option String} : service.publisher = true →
      ⟨.inr .readDeliveryErrorAt, some errAt⟩ ∈ past → ⟨.inr .monotonic, now⟩ ∈ past →
      (0x403E000000000000 : Python.Double).lt (now.sub errAt) = false → ⟨.inr .readDeliveryError, error⟩ ∈ past →
      Unready service past ("kafka delivery failing: " ++ formatted error)

/-- What a probe that calls the process ready has met. -/
structure ReadyAsOf (service : PredictionService) (past : List (Program.Exchange ServerReply)) : Prop where
  model : ∃ loaded, ⟨.inl .readCurrent, some loaded⟩ ∈ past
  features : service.features = true → ⟨.inr .health, true⟩ ∈ past
  store : service.store = true → ⟨.inr .ping, true⟩ ∈ past
  publisher : service.publisher = true → Delivers past

section Probed

variable {service : PredictionService} {past later : List (Program.Exchange ServerReply)}

theorem Delivers.since (delivers : Delivers past) (since : past <+: later) : Delivers later := by
  cases delivers with
  | never read => exact .never (since.subset read)
  | recovered failed delivered newer => exact .recovered (since.subset failed) (since.subset delivered) newer
  | stale failed clock old => exact .stale (since.subset failed) (since.subset clock) old

theorem recovered_obeys (errAt : Python.Double) :
    (degraded.recovered errAt).Obeys (fun _ _ => True) (fun now result => ∀ recovered, result = .ok recovered →
      past <+: now ∧ (recovered = true →
        ∃ okAt, ⟨.inr .readDeliveryOkAt, some okAt⟩ ∈ now ∧ errAt.lt okAt = true)) past := by
  refine ⟨trivial, fun (okAt : Option Python.Double) => ?_⟩
  cases okAt with
  | none =>
    rintro recovered same
    cases same
    exact ⟨List.prefix_append .., fun impossible => by cases impossible⟩
  | some first =>
    refine ⟨trivial, fun (okAt : Option Python.Double) => ?_⟩
    cases okAt with
    | none =>
      rintro recovered same
      cases same
    | some okAt =>
      rintro recovered same
      cases same
      exact ⟨(List.prefix_append ..).trans (List.prefix_append ..), fun newer => ⟨okAt, mem_snoc _, newer⟩⟩

theorem degraded_obeys :
    degraded.Obeys (fun _ _ => True) (fun now result => ∀ reason, result = .ok reason → past <+: now ∧
      ((reason = none ∧ Delivers now) ∨ ∃ (errAt clock : Python.Double) (error : Option String),
        reason = some ("kafka delivery failing: " ++ formatted error) ∧
        ⟨.inr .readDeliveryErrorAt, some errAt⟩ ∈ now ∧ ⟨.inr .monotonic, clock⟩ ∈ now ∧
        (0x403E000000000000 : Python.Double).lt (clock.sub errAt) = false ∧
        ⟨.inr .readDeliveryError, error⟩ ∈ now)) past := by
  refine ⟨trivial, fun (errAt : Option Python.Double) => ?_⟩
  cases errAt with
  | none =>
    rintro reason same
    cases same
    exact ⟨List.prefix_append .., Or.inl ⟨rfl, .never (mem_snoc _)⟩⟩
  | some errAt =>
    refine (recovered_obeys errAt).bind (fun now error _ reason impossible => by cases impossible) ?_
    rintro now recovered asked
    obtain ⟨since, newer⟩ := asked recovered rfl
    have failed : (⟨.inr .readDeliveryErrorAt, some errAt⟩ : Program.Exchange ServerReply) ∈ now :=
      since.subset (mem_snoc _)
    have before : past <+: now := (List.prefix_append ..).trans since
    split
    · rename_i isRecovered
      rintro reason same
      cases same
      obtain ⟨okAt, delivered, isNewer⟩ := newer isRecovered
      exact ⟨before, Or.inl ⟨rfl, .recovered failed delivered isNewer⟩⟩
    · refine ⟨trivial, fun (clock : Python.Double) => ?_⟩
      have onward : now <+: now ++ [(⟨.inr .monotonic, clock⟩ : Program.Exchange ServerReply)] := List.prefix_append ..
      show Program.Obeys _ _ (if _ then _ else _) _
      split
      · rename_i old
        rintro reason same
        cases same
        exact ⟨before.trans onward, Or.inl ⟨rfl, .stale (onward.subset failed) (mem_snoc _) old⟩⟩
      · rename_i recent
        refine ⟨trivial, fun (error : Option String) => ?_⟩
        rintro reason same
        cases same
        have last : now ++ [(⟨.inr .monotonic, clock⟩ : Program.Exchange ServerReply)] <+:
            now ++ [⟨.inr .monotonic, clock⟩] ++ [⟨.inr .readDeliveryError, error⟩] := List.prefix_append ..
        exact ⟨(before.trans onward).trans last, Or.inr ⟨errAt, clock, error, rfl, last.subset (onward.subset failed),
          last.subset (mem_snoc _), Bool.eq_false_iff.mpr recent, mem_snoc _⟩⟩

/-- What a part of the readiness probe says, `ready` being what it found
before it calls the process ready. -/
def Verdict (service : PredictionService) (past : List (Program.Exchange ServerReply))
    (ready : List (Program.Exchange ServerReply) → Prop) (now : List (Program.Exchange ServerReply))
    (result : Except ServiceError (Bool × String)) : Prop :=
  ∀ ok reason, result = .ok (ok, reason) → past <+: now ∧ (ok = true → reason = "ready" ∧ ready now) ∧
    (ok = false → Unready service now reason)

theorem Verdict.weaken {ready wider : List (Program.Exchange ServerReply) → Prop}
    {result : Except ServiceError (Bool × String)} {now : List (Program.Exchange ServerReply)}
    (verdict : Verdict service later ready now result) (since : past <+: later)
    (implies : ∀ now, later <+: now → ready now → wider now) : Verdict service past wider now result := by
  intro ok reason same
  obtain ⟨onward, holds, fails⟩ := verdict ok reason same
  exact ⟨since.trans onward, fun isOk => ⟨(holds isOk).1, implies now onward (holds isOk).2⟩, fails⟩

theorem verdict_fails {ready : List (Program.Exchange ServerReply) → Prop} {reason : String} (since : past <+: later)
    (unready : Unready service later reason) :
    Verdict service past ready later (.ok (false, reason)) := by
  rintro ok said same
  cases same
  refine ⟨since, fun impossible => ?_, fun _ => unready⟩
  cases impossible

theorem publisherReady_obeys : (publisherReady service).Obeys (fun _ _ => True)
    (Verdict service past fun now => service.publisher = true → Delivers now) past := by
  unfold publisherReady
  split
  · rename_i publishes
    refine degraded_obeys.bind (fun now error _ ok reason impossible => by cases impossible) ?_
    rintro now reason told
    obtain ⟨since, ⟨rfl, delivers⟩ | ⟨errAt, clock, error, rfl, failed, asked, recent, read⟩⟩ := told reason rfl
    · rintro ok reason same
      cases same
      exact ⟨since, fun _ => ⟨rfl, fun _ => delivers⟩, fun impossible => by cases impossible⟩
    · have nonempty : truthy (some ("kafka delivery failing: " ++ formatted error)) =
          some ("kafka delivery failing: " ++ formatted error) := by
        refine Option.filter_some_pos (bne_iff_ne.mpr fun empty => ?_)
        have short := (String.append_eq_empty_iff.mp empty).1
        exact absurd short (by decide)
      rw [nonempty]
      exact verdict_fails since (.failing publishes failed asked recent read)
  · rename_i silent
    rintro ok reason same
    cases same
    exact ⟨List.prefix_rfl, fun _ => ⟨rfl, fun publishes => absurd publishes silent⟩,
      fun impossible => by cases impossible⟩

theorem storeReady_obeys : (storeReady service).Obeys (fun _ _ => True)
    (Verdict service past fun now => (service.store = true → ⟨.inr .ping, true⟩ ∈ now) ∧
      (service.publisher = true → Delivers now)) past := by
  unfold storeReady
  split
  · rename_i stores
    refine ⟨trivial, fun (answers : Bool) => ?_⟩
    cases answers with
    | true =>
      refine publisherReady_obeys.mono fun now result verdict => ?_
      exact verdict.weaken (List.prefix_append ..) fun now since delivers =>
        ⟨fun _ => since.subset (mem_snoc _), delivers⟩
    | false =>
      refine ⟨trivial, fun (error : Option String) => ?_⟩
      have pinged : past ++ [(⟨.inr .ping, false⟩ : Program.Exchange ServerReply)] <+:
          past ++ [⟨.inr .ping, false⟩] ++ [⟨.inr .readStoreError, error⟩] := List.prefix_append ..
      exact verdict_fails ((List.prefix_append ..).trans pinged)
        (.noStore stores (pinged.subset (mem_snoc _)) (mem_snoc _))
  · rename_i none
    refine publisherReady_obeys.mono fun now result verdict => ?_
    exact verdict.weaken List.prefix_rfl fun now _ delivers => ⟨fun stores => absurd stores none, delivers⟩

theorem featuresReady_obeys : (featuresReady service).Obeys (fun _ _ => True)
    (Verdict service past fun now => (service.features = true → ⟨.inr .health, true⟩ ∈ now) ∧
      (service.store = true → ⟨.inr .ping, true⟩ ∈ now) ∧ (service.publisher = true → Delivers now)) past := by
  unfold featuresReady
  split
  · rename_i fetches
    refine ⟨trivial, fun (healthy : Bool) => ?_⟩
    cases healthy with
    | true =>
      refine storeReady_obeys.mono fun now result verdict => ?_
      exact verdict.weaken (List.prefix_append ..) fun now since rest => ⟨fun _ => since.subset (mem_snoc _), rest⟩
    | false => exact verdict_fails (List.prefix_append ..) (.noFeatures fetches (mem_snoc _))
  · rename_i none
    refine storeReady_obeys.mono fun now result verdict => ?_
    exact verdict.weaken List.prefix_rfl fun now _ rest => ⟨fun fetches => absurd fetches none, rest⟩

theorem readiness_obeys : (readiness service).Obeys (fun _ _ => True) (Verdict service [] (ReadyAsOf service)) [] := by
  refine ⟨trivial, fun (current : Option LoadedModel) => ?_⟩
  cases current with
  | none =>
    refine ⟨trivial, fun (error : Option String) => ?_⟩
    have read : [] ++ [(⟨.inl .readCurrent, (none : Option LoadedModel)⟩ : Program.Exchange ServerReply)] <+:
        [] ++ [⟨.inl .readCurrent, (none : Option LoadedModel)⟩] ++ [⟨.inr .readLastError, error⟩] :=
      List.prefix_append ..
    exact verdict_fails (List.nil_prefix) (.noModel (read.subset (mem_snoc _)) (mem_snoc _))
  | some loaded =>
    refine featuresReady_obeys.mono fun now result verdict => ?_
    exact verdict.weaken List.nil_prefix fun now since rest =>
      ⟨⟨loaded, since.subset (mem_snoc _)⟩, rest.1, rest.2.1, rest.2.2⟩

end Probed

namespace Api

/-- A model once loaded is replaced only by another, and a delivery once
noted stays noted. -/
structure Grows (s now : Api) : Prop where
  loaded : s.server.current.isSome = true → now.server.current.isSome = true
  delivered : s.deliveryOkAt.isSome = true → now.deliveryOkAt.isSome = true

variable {service : PredictionService} {settings : ApiSettings} {fleet later : ApiFleet} {id : Nat} {s now : Api}
  {request : ServerCall} {reply : ServerReply request} {past : List (Program.Exchange ServerReply)}

theorem Grows.refl (s : Api) : Grows s s := ⟨fun loaded => loaded, fun delivered => delivered⟩

theorem Grows.trans {last : Api} (first : Grows s now) (second : Grows now last) : Grows s last :=
  ⟨fun loaded => second.loaded (first.loaded loaded), fun delivered => second.delivered (first.delivered delivered)⟩

theorem Performs.grows (performed : Performs id s request reply now) : Grows s now := by
  cases performed with
  | service performed _ => exact ⟨performed.grows.2, fun delivered => delivered⟩
  | notSaved _ performed _ => exact ⟨performed.grows.2, fun delivered => delivered⟩
  | writeDeliveryOkAt => exact ⟨fun loaded => loaded, fun _ => rfl⟩
  | _ => exact ⟨fun loaded => loaded, fun delivered => delivered⟩

theorem Performs.reads_okAt {okAt : Option Python.Double}
    (performed : Performs id s (.inr .readDeliveryOkAt) okAt now) : okAt = s.deliveryOkAt ∧ now = s := by
  cases performed
  exact ⟨rfl, rfl⟩

theorem Performs.reads_current {current : Option LoadedModel} (performed : Performs id s (.inl .readCurrent) current now) :
    current = s.server.current ∧ now.server.current = s.server.current := by
  have serves := performed.serves
  refine ⟨Server.Performs.reads serves, ?_⟩
  generalize now.server = after at serves
  cases serves
  rfl

theorem letGo_grows (id : Nat) (s : Api) : Grows s (s.letGo id) :=
  ⟨fun loaded => (Server.letGo_frame id s.server).2.2 ▸ loaded, fun delivered => delivered⟩

/-- The rules of a program among threads that lose nothing. -/
abbrev Watches (id : Nat) {α : Type} (post : Except ServiceError α → Api → Prop)
    (program : Program ServerCall ServerReply ServiceError α) (s : Api) : Prop :=
  program.Secures Grows (Workload.Guarantees (fun _ => Grows) id) (fun _ => True) (Performs id) post s

section Watches

variable {α β : Type} {post : Except ServiceError α → Api → Prop}

theorem watches_call {resume : ServerReply request → Program ServerCall ServerReply ServiceError α}
    (next : ∀ now reply later, Grows s now → Performs id now request reply later → Watches id post (resume reply) later) :
    Watches id post (.call request resume) s :=
  fun now changed _ reply later performed =>
    ⟨⟨fun _ _ => performed.grows, trivial⟩, next now reply later changed performed⟩

/-- The program does not raise. -/
abbrev Returns (id : Nat) (program : Program ServerCall ServerReply ServiceError α) (s : Api) : Prop :=
  Watches id (fun result _ => ∃ value, result = .ok value) program s

theorem returns_pure (value : α) : Returns id (.pure value) s := fun _ _ _ => ⟨value, rfl⟩

theorem returns_call {resume : ServerReply request → Program ServerCall ServerReply ServiceError α}
    (next : ∀ reply later, Returns id (resume reply) later) : Returns id (.call request resume) s :=
  watches_call fun _ reply later _ _ => next reply later

theorem Returns.bind {program : Program ServerCall ServerReply ServiceError α}
    {next : α → Program ServerCall ServerReply ServiceError β} (first : Returns id program s)
    (goesOn : ∀ value now, Returns id (next value) now) : Returns id (program.bind next) s := by
  refine Program.Secures.bind Grows.refl trivial first ?_ fun value now _ _ => goesOn value now
  rintro error now - ⟨value, impossible⟩
  cases impossible

/-- The second reading of the last delivery finds one where the first did. -/
theorem recovered_returns (errAt : Python.Double) : Returns id (degraded.recovered errAt) s := by
  refine watches_call fun now (first : Option Python.Double) later _ performed => ?_
  obtain ⟨rfl, rfl⟩ := performed.reads_okAt
  cases noted : later.deliveryOkAt with
  | none => exact returns_pure false
  | some _ =>
    refine watches_call fun now (again : Option Python.Double) last changed performed => ?_
    obtain ⟨rfl, -⟩ := performed.reads_okAt
    have still := changed.delivered (noted ▸ rfl)
    cases again : now.deliveryOkAt with
    | none =>
      rw [again] at still
      cases still
    | some okAt => exact returns_pure _

theorem degraded_returns : Returns id degraded s := by
  refine returns_call fun (errAt : Option Python.Double) later => ?_
  cases errAt with
  | none => exact returns_pure none
  | some errAt =>
    refine (recovered_returns errAt).bind fun recovered now => ?_
    split
    · exact returns_pure none
    · refine returns_call fun (clock : Python.Double) now => ?_
      show Returns id (if _ then _ else _) _
      split
      · exact returns_pure none
      · exact returns_call fun _ now => returns_pure _

theorem featuresReady_returns : Returns id (featuresReady service) s := by
  have publisher (s : Api) : Returns id (publisherReady service) s := by
    unfold publisherReady
    split
    · refine degraded_returns.bind fun reason now => ?_
      cases truthy reason <;> exact returns_pure _
    · exact returns_pure _
  have store (s : Api) : Returns id (storeReady service) s := by
    unfold storeReady
    split
    · refine returns_call fun (answers : Bool) later => ?_
      cases answers with
      | true => exact publisher later
      | false => exact returns_call fun _ _ => returns_pure _
    · exact publisher s
  unfold featuresReady
  split
  · refine returns_call fun (healthy : Bool) later => ?_
    cases healthy with
    | true => exact store later
    | false => exact returns_pure _
  · exact store s

theorem readiness_returns : Returns id (readiness service) s := by
  refine returns_call fun (current : Option LoadedModel) later => ?_
  cases current with
  | none => exact returns_call fun _ _ => returns_pure _
  | some _ => exact featuresReady_returns

/-- The metadata of the served model, which is there from the moment that a
model is. -/
theorem currentMetadata_watches : Watches id (fun result _ => ∃ model : Option ModelMetadata, result = .ok model ∧
    (s.server.current.isSome = true → model.isSome = true)) ApiTask.currentMetadata s := by
  refine watches_call fun now (current : Option LoadedModel) later changed performed => ?_
  obtain ⟨rfl, same⟩ := performed.reads_current
  cases served : now.server.current with
  | none =>
    refine fun _ _ _ => ⟨none, rfl, fun loaded => ?_⟩
    have still := changed.loaded loaded
    rw [served] at still
    cases still
  | some _ =>
    refine watches_call fun last (again : Option LoadedModel) _ changed performed => ?_
    obtain ⟨rfl, -⟩ := performed.reads_current
    have still := changed.loaded (same.trans served ▸ rfl)
    cases found : last.server.current with
    | none =>
      rw [found] at still
      cases still
    | some loaded => exact fun _ _ _ => ⟨some loaded.metadata, rfl, fun _ => rfl⟩

/-- What `GET /model` answers. -/
def ModelAnswer (result : Except ServiceError ApiResult) : Prop :=
  ∃ (loaded : Bool) (model : Option ModelMetadata) (modelUri refreshPolicy : String) (count : Nat)
    (error : Option String), (loaded = true → model.isSome = true) ∧
      result = .ok (.response { status := 200, body := .model loaded model modelUri refreshPolicy count error })

theorem modelEndpoint_watches : Watches id (fun result _ => ModelAnswer result)
    (ApiTask.modelEndpoint service settings) s := by
  refine watches_call fun now (current : Option LoadedModel) later _ performed => ?_
  obtain ⟨rfl, same⟩ := performed.reads_current
  have metadata : Watches id (fun result _ => ∃ model : Option ModelMetadata, result = .ok model ∧
      (later.server.current.isSome = true → model.isSome = true)) ApiTask.currentMetadata later :=
    currentMetadata_watches
  show Watches id _ (ApiTask.currentMetadata.bind _) later
  refine Program.Secures.bind Grows.refl trivial metadata ?_ ?_
  · rintro error _ - ⟨model, impossible, -⟩
    cases impossible
  · rintro model _ - ⟨_, found, present⟩
    cases found
    rw [same] at present
    exact watches_call fun _ count _ _ _ => watches_call fun _ error _ _ _ _ _ _ => ⟨_, _, _, _, _, _, present, rfl⟩

end Watches

theorem watches_any {α : Type} (program : Program ServerCall ServerReply ServiceError α) (s : Api) :
    Watches id (fun _ _ => True) program s := by
  induction program generalizing s with
  | pure | raise => exact fun _ _ _ => trivial
  | call request resume ih => exact watches_call fun _ reply later _ _ => ih reply later

/-- The probes and `GET /model` answer. -/
def Responds (result : Except ServiceError ApiResult) : ApiTask → Prop
  | .ready => ∃ response, result = .ok response
  | .model => ModelAnswer result
  | _ => True

theorem body_watches (task : ApiTask) (s : Api) :
    Watches id (fun result _ => Responds result task) (task.body service settings) s := by
  cases task with
  | ready => exact readiness_returns.bind fun _ _ => returns_pure _
  | model => exact modelEndpoint_watches
  | _ => exact watches_any _ s

theorem responds (reach : Reach (ApiStep service settings) .initial fleet) {task : ApiTask}
    {result : Except ServiceError ApiResult} (ended : fleet.processes id = .ended task past (some result)) :
    Responds result task := by
  have secured : (answering service settings).Secured (fun _ => Grows) (fun _ => True) (fun _ _ => True)
      (fun _ task result _ => Responds result task) id fleet.shared (fleet.processes id) := by
    refine (Workload.secured reach.guardTrivially trivial (fun _ => ⟨rfl, trivial⟩) (fun _ => Grows.refl)
      (fun _ => Grows.trans) (fun _ {_ _} _ _ => trivial) (fun {_ event} => event.elim)
      (fun task _ _ => body_watches task _) ?_ ?_).2 id
    · exact fun {ended _ _ s} _ _ => ⟨trivial, fun _ => letGo_grows ended s⟩
    · exact fun {before ended} _ _ => ⟨trivial, fun _ => letGo_grows ended before.shared⟩
  rw [ended] at secured
  exact secured _ (Grows.refl _) trivial

theorem grows (reach : Reach (ApiStep service settings) fleet later) : Grows fleet.shared later.shared := by
  refine reach.relates (fun fleet later => Grows fleet.shared later.shared) (fun fleet => Grows.refl _)
    (fun first second => first.trans second) ?_
  rintro before action after taken
  cases taken with
  | @environment event => exact event.elim
  | @process actor action shared next taken =>
    generalize before.processes actor = thread at taken
    cases taken with
    | start => exact Grows.refl _
    | call reply performed => exact performed.grows
    | «return» | raise | crash => exact letGo_grows actor before.shared

/-- What a thread that started since read of the cached model was so at some
moment since. -/
theorem was_current (reach : Reach (ApiStep service settings) fleet later) (idle : fleet.processes id = .idle)
    {current : Option LoadedModel} (read : ⟨.inl .readCurrent, current⟩ ∈ (later.processes id).past) :
    ∃ during, Reach (ApiStep service settings) fleet during ∧ during.shared.server.current = current ∧
      Reach (ApiStep service settings) during later := by
  obtain ⟨during, now, reached, -, performed, through, onward⟩ := Workload.happened reach.guardTrivially idle read
  have is := (performed : Performs id during.shared (.inl .readCurrent) current now.shared).reads_current.1
  exact ⟨during, reached.forget_guard, is.symm, through.forget_guard.trans onward.forget_guard⟩

theorem read_of_modelsRead {current : Option LoadedModel} (read : current ∈ modelsRead (lefts past)) :
    ⟨.inl .readCurrent, current⟩ ∈ past := by
  obtain ⟨⟨request, reply⟩, listed, isRead⟩ := List.mem_filterMap.mp read
  obtain ⟨⟨call, answer⟩, made, isService⟩ := List.mem_filterMap.mp listed
  cases request with
  | readCurrent =>
    cases isRead
    cases call with
    | inl call =>
      cases isService
      exact made
    | inr call => cases isService
  | _ => cases isRead

theorem readyEndpoint_obeys : (ApiTask.readyEndpoint service).Obeys (fun _ _ => True) (fun now result =>
    ∀ response, result = .ok response → ∃ ok reason,
      response = .response { status := if ok then 200 else 503, body := .text reason } ∧
      (ok = false → Unready service now reason) ∧ (ok = true → ReadyAsOf service now)) [] := by
  refine readiness_obeys.bind (fun now error _ response impossible => by cases impossible) ?_
  rintro now ⟨ok, reason⟩ verdict response same
  cases same
  obtain ⟨-, holds, fails⟩ := verdict ok reason rfl
  exact ⟨ok, reason, rfl, fails, fun isOk => (holds isOk).2⟩

/-- **Readiness.** Every `GET /ready` that has ended was answered: 503 with a
reason that it met, or 200 after it found a model loaded and each of the parts
there are healthy. And once it was answered 200, no prediction that starts
from then on is told that there is no model, for as long as the process
lives. -/
theorem ready_serves (reach : Reach (ApiStep service settings) .initial fleet) {probe : Nat}
    {result : Except ServiceError ApiResult} (probed : fleet.processes probe = .ended .ready past (some result)) :
    ∃ ok reason, result = .ok (.response { status := if ok then 200 else 503, body := .text reason }) ∧
      (ok = false → Unready service past reason) ∧
      (ok = true → ReadyAsOf service past ∧
        ∀ later id task earlier answer, Reach (ApiStep service settings) fleet later → fleet.processes id = .idle →
          later.processes id = .ended task earlier (some (.ok (.response answer))) → task.Predicts →
          answer.status ≠ 503) := by
  obtain ⟨response, rfl⟩ : ∃ response, result = .ok response := responds reach probed
  obtain ⟨ok, reason, rfl, fails, holds⟩ := (ends reach probed).obeys readyEndpoint_obeys response rfl
  refine ⟨ok, reason, rfl, fails, fun isOk => ⟨holds isOk, ?_⟩⟩
  intro later id task earlier answer run idle ended predicts refused
  obtain ⟨loaded, read⟩ := (holds isOk).model
  have readThen : ⟨.inl .readCurrent, some loaded⟩ ∈ (fleet.processes probe).past := by rwa [probed]
  obtain ⟨moment, -, served, since⟩ := was_current reach rfl readThen
  have loadedNow : fleet.shared.server.current.isSome = true := (grows since).loaded (served ▸ rfl)
  have answered := answered_of_ends predicts (ends (reach.trans run) ended)
  generalize same : Except.ok (ApiResult.response answer) = result at answered
  cases answered with
  | noModel read _ =>
    have missing : ⟨.inl .readCurrent, none⟩ ∈ (later.processes id).past := by
      rw [ended]
      exact read_of_modelsRead (read ▸ List.mem_singleton.mpr rfl)
    obtain ⟨moment, reached, absent, -⟩ := was_current run idle missing
    have still := (grows reached).loaded loadedNow
    rw [absent] at still
    cases still
  | predicted | invalid | noFeatures | noClient | failed =>
    cases same
    cases refused
  | raised => cases same

open Workload (reach_start reach_call reach_return) in
theorem first_probe_reached : ∃ (fleet : ApiFleet) (past : List (Program.Exchange ServerReply)),
    Reach (ApiStep wholeService {}) .initial fleet ∧
      fleet.processes 1 = .ended .ready past (some (.ok (.response { status := 200, body := .text "ready" }))) := by
  obtain ⟨_, reach⟩ := first_refresh_reached
  have waiting := Fleet.reach_other reach (show 1 ≠ 0 by decide)
  have started := reach_start waiting .ready trivial
  have read := reach_call started rfl (some servedModel) (.service .readCurrent rfl) trivial
  have healthy := reach_call read rfl true (.health _) trivial
  have pinged := reach_call healthy rfl true .pinged trivial
  have delivers := reach_call pinged rfl (none : Option Python.Double) .readDeliveryErrorAt trivial
  exact ⟨_, _, (reach_return delivers rfl trivial).forget_guard, rfl⟩

theorem first_probe_ready : ∃ (fleet : ApiFleet) (past : List (Program.Exchange ServerReply)),
    Reach (ApiStep wholeService {}) .initial fleet ∧ ReadyAsOf wholeService past := by
  obtain ⟨fleet, past, reach, probed⟩ := first_probe_reached
  obtain ⟨ok, reason, same, -, holds⟩ := ready_serves reach probed
  cases ok with
  | true => exact ⟨fleet, past, reach, (holds rfl).1⟩
  | false => cases same

end Api

end Amel
