import Amel.Inference.Api
import Amel.Library.Guarantee

namespace Amel

open Transition (Reach Guarded)
open Program (lefts)

namespace ModelCache

variable {cache : ModelCache} {model : LoadedModel}

theorem refresh_served (served : cache.version = some model.metadata.version) :
    cache.refresh (.loaded model) = ((cache.version, cache.version), { cache with lastError := none }) := by
  rcases cache.refresh_cases (.loaded model) with ⟨_, _, impossible, -⟩ | ⟨_, -, -, done⟩ | ⟨_, same, other, -⟩
  · cases impossible
  · exact done
  · cases same
    exact absurd served other

theorem refresh_other (other : cache.version ≠ some model.metadata.version) :
    cache.refresh (.loaded model) = ((cache.version, some model.metadata.version),
      { cache with current := some model, lastError := none, refreshCount := cache.refreshCount + 1 }) := by
  rcases cache.refresh_cases (.loaded model) with ⟨_, _, impossible, -⟩ | ⟨_, same, served, -⟩ | ⟨_, same, -, done⟩
  · cases impossible
  · cases same
    exact absurd served other
  · cases same
    exact done

/-- The test of the code, on what it has read of the cache. -/
theorem served_iff : (cache.current.isSome && some model.metadata.version = cache.version) = true ↔
    cache.version = some model.metadata.version := by
  rw [version]
  cases cache.current with
  | none => simp
  | some served => simp [eq_comm]

end ModelCache

namespace Api

/-- The fields of the cache. -/
def cache (service : PredictionService) (s : Api) : ModelCache where
  name := service.name
  «alias» := service.alias
  current := s.server.current
  lastError := s.lastError
  lastErrorAt := s.lastErrorAt
  refreshCount := s.refreshCount

/-- The cache after these answers of the loader to refreshes one after the
other. -/
def after (service : PredictionService) (loads : List (Nat × LoaderOutcome)) : ModelCache :=
  ModelCache.after { name := service.name, «alias» := service.alias } (loads.map Prod.snd)

/-- All loads made, or all but the one that the holder of the lock works on. -/
def Settles (s : Api) (done : List (Nat × LoaderOutcome)) : Prop :=
  s.loads = done ∨ ∃ holder outcome, s.loads = done ++ [(holder, outcome)] ∧ s.server.lock = some holder

/-- The cache is the one that refreshes one after the other leave. While one
is at work, each field read without the lock is as before it or as after it. -/
structure Ordered (service : PredictionService) (s : Api) : Prop where
  free : s.server.lock = none → s.cache service = after service s.loads
  current : ∃ done, s.Settles done ∧ s.server.current = (after service done).current
  lastError : ∃ done, s.Settles done ∧ s.lastError = (after service done).lastError

/-- What a thread relies on: while it holds the lock the cache stays, nobody
takes the lock for it, and answers of the loader stay noted. -/
structure Relies (service : PredictionService) (id : Nat) (s now : Api) : Prop where
  held : s.server.lock = some id → now.server.lock = some id ∧ now.cache service = s.cache service ∧ now.loads = s.loads
  notHeld : s.server.lock ≠ some id → now.server.lock ≠ some id
  loads : s.loads <+: now.loads

variable {service : PredictionService} {id : Nat} {s now : Api}

theorem Relies.refl (service : PredictionService) (id : Nat) (s : Api) : Relies service id s s :=
  ⟨fun holds => ⟨holds, rfl, rfl⟩, fun waits => waits, List.prefix_rfl⟩

theorem Relies.trans {later : Api} (first : Relies service id s now) (second : Relies service id now later) :
    Relies service id s later where
  held holds := by
    obtain ⟨still, cache, loads⟩ := first.held holds
    obtain ⟨lock, cacheLater, loadsLater⟩ := second.held still
    exact ⟨lock, cacheLater.trans cache, loadsLater.trans loads⟩
  notHeld waits := second.notHeld (first.notHeld waits)
  loads := first.loads.trans second.loads

/-- No other thread has the lock. -/
def Own (id : Nat) (s : Api) : Prop := ∀ other, other ≠ id → s.server.lock ≠ some other

theorem guarantees_of_own (before : Own id s) (afterwards : Own id now) (loads : s.loads <+: now.loads) :
    Workload.Guarantees (Relies service) id s now := by
  intro other different
  exact ⟨fun holds => absurd holds (before other different), fun _ => afterwards other different, loads⟩

/-- The thread holds the lock over this cache. -/
structure Inside (service : PredictionService) (id : Nat) (loads : List (Nat × LoaderOutcome)) (cache : ModelCache)
    (s : Api) : Prop where
  lock : s.server.lock = some id
  loads : s.loads = loads
  cache : s.cache service = cache

theorem Inside.own {loads : List (Nat × LoaderOutcome)} {cache : ModelCache}
    (inside : Inside service id loads cache s) : Own id s := by
  intro other different holds
  rw [inside.lock, Option.some.injEq] at holds
  exact different holds.symm

theorem Inside.relies {loads : List (Nat × LoaderOutcome)} {cache : ModelCache}
    (inside : Inside service id loads cache s) (changed : Relies service id s now) :
    Inside service id loads cache now := by
  obtain ⟨lock, same, unchanged⟩ := changed.held inside.lock
  exact ⟨lock, unchanged.trans inside.loads, same.trans inside.cache⟩

/-- Under the lock with the loader's answer noted, where the two fields that
are read without the lock are old or new. -/
theorem Inside.ordered {earlier : List (Nat × LoaderOutcome)} {outcome : LoaderOutcome} {cache : ModelCache}
    (inside : Inside service id (earlier ++ [(id, outcome)]) cache s)
    (current : cache.current = (after service earlier).current ∨
      cache.current = (after service (earlier ++ [(id, outcome)])).current)
    (lastError : cache.lastError = (after service earlier).lastError ∨
      cache.lastError = (after service (earlier ++ [(id, outcome)])).lastError) : Ordered service s := by
  have old : s.Settles earlier := Or.inr ⟨id, outcome, inside.loads, inside.lock⟩
  have new : s.Settles (earlier ++ [(id, outcome)]) := Or.inl inside.loads
  have currentIs : s.server.current = cache.current := congrArg ModelCache.current inside.cache
  have lastErrorIs : s.lastError = cache.lastError := congrArg ModelCache.lastError inside.cache
  refine ⟨fun free => ?_, ?_, ?_⟩
  · rw [inside.lock] at free
    cases free
  · rcases current with same | same
    · exact ⟨_, old, currentIs.trans same⟩
    · exact ⟨_, new, currentIs.trans same⟩
  · rcases lastError with same | same
    · exact ⟨_, old, lastErrorIs.trans same⟩
    · exact ⟨_, new, lastErrorIs.trans same⟩

/-- The rules of this order for a program of the thread `id`. -/
abbrev Serializes (service : PredictionService) (id : Nat) {α : Type} (post : Except ServiceError α → Api → Prop)
    (program : Program ServerCall ServerReply ServiceError α) (s : Api) : Prop :=
  program.Secures (Relies service id) (Workload.Guarantees (Relies service) id) (Ordered service) (Performs id) post s

section Critical

variable {α : Type} {loads earlier : List (Nat × LoaderOutcome)} {outcome : LoaderOutcome} {cache : ModelCache}
  {post : Except ServiceError α → Api → Prop}

/-- A call under the lock. -/
theorem Inside.call {request : ServerCall} {resume : ServerReply request → Program ServerCall ServerReply ServiceError α}
    (inside : Inside service id loads cache s)
    (next : ∀ now reply after, Inside service id loads cache now → Ordered service now →
      Performs id now request reply after → ∃ loadsAfter cacheAfter, loads <+: loadsAfter ∧
        Inside service id loadsAfter cacheAfter after ∧ Ordered service after ∧
        Serializes service id post (resume reply) after) :
    Serializes service id post (.call request resume) s := by
  intro now changed valid reply after performed
  have insideNow := inside.relies changed
  obtain ⟨loadsAfter, cacheAfter, more, insideAfter, ordered, rest⟩ := next now reply after insideNow valid performed
  refine ⟨⟨guarantees_of_own insideNow.own insideAfter.own ?_, ordered⟩, rest⟩
  rw [insideNow.loads, insideAfter.loads]
  exact more

/-- A call under the lock that changes nothing. -/
theorem Inside.reads {request : ServerCall} {resume : ServerReply request → Program ServerCall ServerReply ServiceError α}
    (inside : Inside service id loads cache s)
    (same : ∀ now reply after, Performs id now request reply after → after = now)
    (next : ∀ now reply, Inside service id loads cache now → Performs id now request reply now →
      Serializes service id post (resume reply) now) :
    Serializes service id post (.call request resume) s := by
  refine inside.call fun now reply after insideNow valid performed => ?_
  obtain rfl := same now reply after performed
  exact ⟨loads, cache, List.prefix_rfl, insideNow, valid, next after reply insideNow performed⟩

/-- A call under the lock that writes a field of the cache, the answer of the
loader being noted. -/
theorem Inside.writes (cacheAfter : ModelCache) {request : ServerCall}
    {resume : ServerReply request → Program ServerCall ServerReply ServiceError α}
    (inside : Inside service id (earlier ++ [(id, outcome)]) cache s)
    (written : ∀ now reply after, Inside service id (earlier ++ [(id, outcome)]) cache now →
      Performs id now request reply after → Inside service id (earlier ++ [(id, outcome)]) cacheAfter after)
    (current : cacheAfter.current = (after service earlier).current ∨
      cacheAfter.current = (after service (earlier ++ [(id, outcome)])).current)
    (lastError : cacheAfter.lastError = (after service earlier).lastError ∨
      cacheAfter.lastError = (after service (earlier ++ [(id, outcome)])).lastError)
    (next : ∀ reply after, Inside service id (earlier ++ [(id, outcome)]) cacheAfter after →
      Serializes service id post (resume reply) after) :
    Serializes service id post (.call request resume) s := by
  refine inside.call fun now reply after insideNow _ performed => ?_
  have insideAfter := written now reply after insideNow performed
  exact ⟨_, cacheAfter, List.prefix_rfl, insideAfter, insideAfter.ordered current lastError,
    next reply after insideAfter⟩

open ServiceProgram in
/-- The lock is let go of when the cache is as the refresh is to leave it. -/
theorem Inside.release {value : α} (inside : Inside service id loads (after service loads) s)
    (ends : ∀ now : Api, now.server.lock ≠ some id → loads <+: now.loads → post (.ok value) now) :
    Serializes service id post (releaseLock.inl.bind fun _ => .pure value) s := by
  intro now changed _ reply later performed
  have insideNow := inside.relies changed
  have free : later.server.lock = none ∧ later.cache service = now.cache service ∧ later.loads = now.loads := by
    cases performed with
    | service performed _ => cases performed; exact ⟨rfl, rfl, rfl⟩
    | notSaved _ performed failed => cases performed; cases failed
  obtain ⟨lock, cache, same⟩ := free
  have own : Own id later := fun other _ holds => by rw [lock] at holds; cases holds
  have settled : later.Settles loads := Or.inl (same.trans insideNow.loads)
  have is : later.cache service = after service loads := cache.trans insideNow.cache
  refine ⟨⟨guarantees_of_own insideNow.own own (same ▸ List.prefix_rfl), fun _ => ?_, ⟨loads, settled, ?_⟩,
    ⟨loads, settled, ?_⟩⟩, fun last changes _ => ends last (changes.notHeld ?_) ?_⟩
  · rw [is, same, insideNow.loads]
  · exact congrArg ModelCache.current is
  · exact congrArg ModelCache.lastError is
  · rw [lock]
    exact (Option.some_ne_none id).symm
  · rw [← insideNow.loads, ← same]
    exact changes.loads

/-- The thread has let go of the lock, and its refresh stands in the order. -/
def RefreshEnds (service : PredictionService) (id : Nat)
    (result : Except ServiceError (Option String × Option String)) (now : Api) : Prop :=
  now.server.lock ≠ some id ∧ ∀ pair, result = .ok pair →
    ∃ earlier outcome, earlier ++ [(id, outcome)] <+: now.loads ∧ pair = ((after service earlier).refresh outcome).1

theorem after_snoc (service : PredictionService) (earlier : List (Nat × LoaderOutcome)) (load : Nat × LoaderOutcome) :
    after service (earlier ++ [load]) = ((after service earlier).refresh load.2).2 := by
  rw [after, List.map_append]
  exact ModelCache.after_snoc _

open ServiceProgram in
/-- The end of a refresh. -/
theorem Inside.finish (inside : Inside service id (earlier ++ [(id, outcome)])
      ((after service earlier).refresh outcome).2 s) {value : Option String × Option String}
    (returns : value = ((after service earlier).refresh outcome).1) :
    Serializes service id (RefreshEnds service id) (releaseLock.inl.bind fun _ => .pure value) s := by
  rw [← after_snoc service earlier (id, outcome)] at inside
  refine inside.release fun now free noted => ⟨free, fun pair same => ?_⟩
  cases same
  exact ⟨earlier, outcome, noted, returns⟩

theorem Performs.readCurrent {current : Option LoadedModel} (performed : Performs id s (.inl .readCurrent) current now) :
    current = s.server.current ∧ now = s := by
  cases performed with
  | service performed _ => cases performed; exact ⟨rfl, rfl⟩
  | notSaved _ performed failed => cases performed; cases failed

theorem Inside.lastError (inside : Inside service id loads cache s) (error : Option String) :
    Inside service id loads { cache with lastError := error } { s with lastError := error } :=
  ⟨inside.lock, inside.loads, congrArg (fun held : ModelCache => { held with lastError := error }) inside.cache⟩

theorem Inside.lastErrorAt (inside : Inside service id loads cache s) (caught : Python.Double) :
    Inside service id loads { cache with lastErrorAt := some caught } { s with lastErrorAt := some caught } :=
  ⟨inside.lock, inside.loads, congrArg (fun held : ModelCache => { held with lastErrorAt := some caught }) inside.cache⟩

theorem Inside.refreshCount (inside : Inside service id loads cache s) (count : Nat) :
    Inside service id loads { cache with refreshCount := count } { s with refreshCount := count } :=
  ⟨inside.lock, inside.loads, congrArg (fun held : ModelCache => { held with refreshCount := count }) inside.cache⟩

theorem Inside.current (inside : Inside service id loads cache s) (loaded : LoadedModel) :
    Inside service id loads { cache with current := some loaded }
      { s with server := { s.server with current := some loaded } } :=
  ⟨inside.lock, inside.loads, congrArg (fun held : ModelCache => { held with current := some loaded }) inside.cache⟩

theorem Inside.writesLastError {error : Option String} {resume : Unit → Program ServerCall ServerReply ServiceError α}
    (inside : Inside service id (earlier ++ [(id, outcome)]) cache s)
    (current : cache.current = (after service earlier).current ∨
      cache.current = (after service (earlier ++ [(id, outcome)])).current)
    (same : error = (after service (earlier ++ [(id, outcome)])).lastError)
    (next : ∀ now, Inside service id (earlier ++ [(id, outcome)]) { cache with lastError := error } now →
      Serializes service id post (resume ()) now) :
    Serializes service id post ((ApiCall.writeLastError error).run.bind resume) s := by
  refine inside.writes { cache with lastError := error } ?_ current (Or.inr same) fun _ now => next now
  intro now reply later insideNow performed
  cases performed
  exact insideNow.lastError error

/-- The loader raised. -/
theorem Inside.recordsError {error : String} {caught : Python.Double}
    (inside : Inside service id (earlier ++ [(id, .raised error caught)]) (after service earlier) s) :
    Serializes service id (RefreshEnds service id) ((ApiCall.writeLastError (some error)).run.bind fun _ =>
      (ApiCall.writeLastErrorAt caught).run.bind fun _ =>
      ServiceProgram.releaseLock.inl.bind fun _ => .pure ((after service earlier).version, (after service earlier).version))
      s := by
  have done := after_snoc service earlier (id, .raised error caught)
  refine inside.writesLastError (Or.inl rfl) (done ▸ rfl) fun now insideNow => ?_
  refine insideNow.writes ((after service earlier).refresh (.raised error caught)).2 ?_ (Or.inl rfl)
    (Or.inr (done ▸ rfl)) fun _ last insideLast => insideLast.finish rfl
  intro before reply later insideBefore performed
  cases performed
  exact insideBefore.lastErrorAt caught

/-- The loader found the version that is served. -/
theorem Inside.keepsModel {loaded : LoadedModel} (served : (after service earlier).version = some loaded.metadata.version)
    (inside : Inside service id (earlier ++ [(id, .loaded loaded)]) (after service earlier) s) :
    Serializes service id (RefreshEnds service id) ((ApiCall.writeLastError none).run.bind fun _ =>
      ServiceProgram.releaseLock.inl.bind fun _ => .pure ((after service earlier).version, (after service earlier).version))
      s := by
  have done := after_snoc service earlier (id, .loaded loaded)
  have refreshed := (after service earlier).refresh_served served
  refine inside.writesLastError (Or.inl rfl) (by rw [done, refreshed]) fun now insideNow => ?_
  have left : Inside service id (earlier ++ [(id, .loaded loaded)]) ((after service earlier).refresh (.loaded loaded)).2
      now := by
    rw [refreshed]
    exact insideNow
  exact left.finish (by rw [refreshed])

/-- The loader found another version. -/
theorem Inside.swapsModel {loaded : LoadedModel} (other : (after service earlier).version ≠ some loaded.metadata.version)
    (inside : Inside service id (earlier ++ [(id, .loaded loaded)]) (after service earlier) s) :
    Serializes service id (RefreshEnds service id) ((ServiceProgram.writeCurrent loaded).inl.bind fun _ =>
      (ApiCall.writeLastError none).run.bind fun _ =>
      ApiCall.readRefreshCount.run.bind fun (count : Nat) =>
      (ApiCall.writeRefreshCount (count + 1)).run.bind fun _ =>
      ServiceProgram.releaseLock.inl.bind fun _ =>
      .pure ((after service earlier).version, some loaded.metadata.version)) s := by
  have done := after_snoc service earlier (id, .loaded loaded)
  have refreshed := ModelCache.refresh_other other
  have swapped : some loaded = (after service (earlier ++ [(id, .loaded loaded)])).current := by rw [done, refreshed]
  refine inside.writes { after service earlier with current := some loaded } ?_ (Or.inr swapped) (Or.inl rfl)
    fun _ now insideNow => ?_
  · intro before reply later insideBefore performed
    cases performed with
    | service performed _ => cases performed; exact insideBefore.current loaded
    | notSaved _ performed failed => cases performed; cases failed
  · refine insideNow.writesLastError (Or.inr swapped) (by rw [done, refreshed]) fun now insideNow => ?_
    refine insideNow.reads ?_ fun now count insideNow performed => ?_
    · intro before reply later performed
      cases performed
      rfl
    · have counted : count = (after service earlier).refreshCount := by
        cases performed
        exact congrArg ModelCache.refreshCount insideNow.cache
      subst counted
      refine insideNow.writes ((after service earlier).refresh (.loaded loaded)).2 ?_ ?_ ?_ fun _ last insideLast =>
        insideLast.finish (by rw [refreshed])
      · intro before reply later insideBefore performed
        cases performed
        rw [refreshed]
        exact insideBefore.refreshCount _
      · rw [done]
        exact Or.inr rfl
      · rw [done]
        exact Or.inr rfl

/-- A refresh from the lock on. -/
theorem Inside.refreshes (inside : Inside service id earlier (after service earlier) s) :
    Serializes service id (RefreshEnds service id) (currentModel.bind fun current =>
      (ApiCall.load service.name service.alias).run.bind (refreshCache.loaded (current.map (·.metadata.version)))) s := by
  refine inside.reads (fun _ _ _ performed => performed.readCurrent.2) fun now current insideNow performed => ?_
  have read : (current : Option LoadedModel) = (after service earlier).current :=
    performed.readCurrent.1.trans (congrArg ModelCache.current insideNow.cache)
  subst read
  refine insideNow.call fun now (outcome : LoaderOutcome) later insideNow _ performed => ?_
  have noted : later = { now with loads := now.loads ++ [(id, outcome)] } := by
    cases performed
    rfl
  subst noted
  have insideLater : Inside service id (earlier ++ [(id, outcome)]) (after service earlier)
      { now with loads := now.loads ++ [(id, outcome)] } :=
    ⟨insideNow.lock, congrArg (· ++ _) insideNow.loads, insideNow.cache⟩
  refine ⟨_, _, List.prefix_append .., insideLater, insideLater.ordered (Or.inl rfl) (Or.inl rfl), ?_⟩
  cases outcome with
  | raised error caught => exact insideLater.recordsError
  | loaded loaded =>
    refine insideLater.reads (fun _ _ _ performed => performed.readCurrent.2) fun last current insideLast performed => ?_
    have read : (current : Option LoadedModel) = (after service earlier).current :=
      performed.readCurrent.1.trans (congrArg ModelCache.current insideLast.cache)
    subst read
    show Serializes service id _ (if _ then _ else _) _
    split
    · rename_i found
      exact insideLast.keepsModel (ModelCache.served_iff.mp found)
    · rename_i missed
      exact insideLast.swapsModel fun served => missed (ModelCache.served_iff.mpr served)

/-- The whole refresh. -/
theorem refreshCache_serializes (s : Api) :
    Serializes service id (RefreshEnds service id) (refreshCache service) s := by
  intro now _ valid reply later performed
  have taken : now.server.lock = none ∧ later = { now with server := { now.server with lock := some id } } := by
    cases performed with
    | service performed _ =>
      cases performed with
      | acquireLock free => exact ⟨free, rfl⟩
    | notSaved _ performed failed => cases performed; cases failed
  obtain ⟨free, rfl⟩ := taken
  have settled := valid.free free
  have inside : Inside service id now.loads (after service now.loads)
      { now with server := { now.server with lock := some id } } := ⟨rfl, rfl, settled⟩
  have ordered : Ordered service { now with server := { now.server with lock := some id } } :=
    ⟨fun impossible => absurd impossible (Option.some_ne_none id),
      ⟨now.loads, Or.inl rfl, congrArg ModelCache.current settled⟩,
      ⟨now.loads, Or.inl rfl, congrArg ModelCache.lastError settled⟩⟩
  refine ⟨⟨guarantees_of_own ?_ inside.own List.prefix_rfl, ordered⟩, ?_⟩
  · intro other _ holds
    rw [free] at holds
    cases holds
  · exact inside.refreshes

end Critical

/-- A call that leaves the lock, the cache and the loads alone. -/
def Quiet : ServerCall → Prop
  | .inl .acquireLock | .inl .releaseLock | .inl (.writeCurrent _) => False
  | .inr (.load _ _) | .inr (.writeLastError _) | .inr (.writeLastErrorAt _) | .inr (.writeRefreshCount _) => False
  | _ => True

theorem Performs.quiet (service : PredictionService) {request : ServerCall} {reply : ServerReply request}
    (performed : Performs id s request reply now) (quiet : Quiet request) :
    now.server.lock = s.server.lock ∧ now.cache service = s.cache service ∧ now.loads = s.loads := by
  cases performed with
  | service performed _ | notSaved _ performed _ =>
    cases performed with
    | acquireLock | releaseLock | writeCurrent => exact quiet.elim
    | _ => exact ⟨rfl, rfl, rfl⟩
  | load | writeLastError | writeLastErrorAt | writeRefreshCount => exact quiet.elim
  | _ => exact ⟨rfl, rfl, rfl⟩

theorem Ordered.same (ordered : Ordered service s) (lock : now.server.lock = s.server.lock)
    (cache : now.cache service = s.cache service) (loads : now.loads = s.loads) : Ordered service now := by
  have settles (done : List (Nat × LoaderOutcome)) (settled : s.Settles done) : now.Settles done := by
    unfold Settles at settled ⊢
    rwa [lock, loads]
  obtain ⟨done, settled, current⟩ := ordered.current
  obtain ⟨seen, settledSeen, lastError⟩ := ordered.lastError
  refine ⟨fun free => ?_, ⟨done, settles done settled, ?_⟩, ⟨seen, settles seen settledSeen, ?_⟩⟩
  · rw [cache, loads]
    exact ordered.free (lock ▸ free)
  · exact (congrArg ModelCache.current cache).trans current
  · exact (congrArg ModelCache.lastError cache).trans lastError

theorem serializes_of_quiet {α : Type} {program : Program ServerCall ServerReply ServiceError α}
    (uses : program.Uses Quiet) (outside : s.server.lock ≠ some id) :
    Serializes service id (fun _ now => now.server.lock ≠ some id) program s := by
  refine uses.secures (fun changed waits => changed.notHeld waits) ?_ outside
  intro before request reply later quiet performed ordered waits
  obtain ⟨lock, cache, loads⟩ := performed.quiet service quiet
  have noted : before.loads <+: later.loads := loads ▸ List.prefix_rfl
  exact ⟨⟨fun other _ => ⟨fun holds => ⟨lock.trans holds, cache, loads⟩, fun free => lock.symm ▸ free, noted⟩,
    ordered.same lock cache loads⟩, lock.symm ▸ waits⟩

section Quiet

open ServiceProgram

variable {parts : PredictionParts} {features : Features} {entityId xTraceId : Option String} {source tid entity : String}

/-- What a prediction calls. -/
abbrev QuietService (request : ServiceCall) : Prop := Quiet (.inl request)

theorem ofReply_quiet {α : Type} (reply : Except Unit α) : (ofReply reply).Uses QuietService := by
  cases reply <;> trivial

theorem deliver_quiet : (deliver service parts).Uses QuietService := by
  refine Program.Uses.bind ?_ fun persisted => Program.Uses.bind ?_ fun _ => trivial
  · unfold persist
    split
    · refine Program.Uses.rescue ?_ fun _ => trivial
      exact Program.Uses.bind ⟨trivial, fun reply => ofReply_quiet reply⟩ fun _ => trivial
    · trivial
  · unfold announce
    split
    · refine Program.Uses.rescue ?_ fun _ => trivial
      refine Program.Uses.bind ⟨trivial, fun _ => trivial⟩ fun now => ?_
      cases (parts.event now).validate with
      | none => trivial
      | some event => exact ⟨trivial, fun reply => ofReply_quiet reply⟩
    · trivial

theorem predict_quiet (started : Python.Double) :
    (predict service features entityId source tid started).Uses QuietService := by
  refine ⟨trivial, fun current => ?_⟩
  match (current : Option LoadedModel) with
  | none => trivial
  | some loaded =>
    show Program.Uses _ (predictLoaded service loaded features entityId source tid started)
    unfold predictLoaded
    split
    · trivial
    · exact ⟨trivial, fun _ => ⟨trivial, fun _ => deliver_quiet⟩⟩

theorem predictRaw_quiet : (predictRaw service features entityId tid).Uses QuietService :=
  ⟨trivial, fun started => predict_quiet started⟩

theorem predictEntity_quiet : (predictEntity service entity tid).Uses QuietService := by
  refine ⟨trivial, fun started => ?_⟩
  show Program.Uses _ (if _ then _ else _)
  split
  · refine Program.Uses.bind ⟨trivial, fun reply => ofReply_quiet reply⟩ fun found => ?_
    cases found with
    | none => trivial
    | some features => exact predict_quiet started
  · trivial

theorem quiet_inl {α : Type} {program : Program ServiceCall ServiceReply ServiceError α}
    (uses : program.Uses QuietService) : (program.inl : Program ServerCall ServerReply ServiceError α).Uses Quiet := by
  refine uses.inl.mono fun request allowed => ?_
  cases request with
  | inl => exact allowed
  | inr => exact allowed.elim

/-- A call that only looks at the cache, or has nothing to do with it. -/
def Observes : ServerCall → Prop
  | .inl .readCurrent => True
  | .inl _ => False
  | .inr (.load _ _) | .inr (.writeLastError _) | .inr (.writeLastErrorAt _) | .inr (.writeRefreshCount _) => False
  | .inr _ => True

theorem quiet_of_observes {α : Type} {program : Program ServerCall ServerReply ServiceError α}
    (uses : program.Uses Observes) : program.Uses Quiet := by
  refine uses.mono fun request observes => ?_
  cases request with
  | inl request =>
    cases request with
    | readCurrent => trivial
    | _ => exact observes.elim
  | inr request =>
    cases request with
    | load | writeLastError | writeLastErrorAt | writeRefreshCount => exact observes.elim
    | _ => trivial

theorem traceId_observes : (traceId xTraceId).Uses Observes := by
  refine ⟨trivial, fun (otel : Option String) => ?_⟩
  show Program.Uses _ (knownOrFresh ((truthy otel).or (truthy xTraceId)))
  cases (truthy otel).or (truthy xTraceId) with
  | some tid => trivial
  | none => exact ⟨trivial, fun _ => trivial⟩

theorem recovered_observes (errAt : Python.Double) : (degraded.recovered errAt).Uses Observes := by
  refine ⟨trivial, fun (okAt : Option Python.Double) => ?_⟩
  cases okAt with
  | none => trivial
  | some _ =>
    refine ⟨trivial, fun (again : Option Python.Double) => ?_⟩
    cases again <;> trivial

theorem degraded_observes : degraded.Uses Observes := by
  refine ⟨trivial, fun (errAt : Option Python.Double) => ?_⟩
  cases errAt with
  | none => trivial
  | some errAt =>
    refine (recovered_observes errAt).bind fun recovered => ?_
    split
    · trivial
    · refine ⟨trivial, fun (now : Python.Double) => ?_⟩
      show Program.Uses _ (if _ then _ else _)
      split
      · trivial
      · exact ⟨trivial, fun _ => trivial⟩

theorem publisherReady_observes : (publisherReady service).Uses Observes := by
  unfold publisherReady
  split
  · refine degraded_observes.bind fun reason => ?_
    cases truthy reason <;> trivial
  · trivial

theorem storeReady_observes : (storeReady service).Uses Observes := by
  unfold storeReady
  split
  · refine ⟨trivial, fun (answers : Bool) => ?_⟩
    cases answers with
    | true => exact publisherReady_observes
    | false => exact ⟨trivial, fun _ => trivial⟩
  · exact publisherReady_observes

theorem featuresReady_observes : (featuresReady service).Uses Observes := by
  unfold featuresReady
  split
  · refine ⟨trivial, fun (healthy : Bool) => ?_⟩
    cases healthy with
    | true => exact storeReady_observes
    | false => trivial
  · exact storeReady_observes

theorem readiness_observes : (readiness service).Uses Observes := by
  refine ⟨trivial, fun (current : Option LoadedModel) => ?_⟩
  cases current with
  | none => exact ⟨trivial, fun _ => trivial⟩
  | some _ => exact featuresReady_observes

theorem onDelivery_observes (err : Option String) : (onDelivery err).Uses Observes := by
  cases err with
  | none => exact ⟨trivial, fun _ => ⟨trivial, fun _ => trivial⟩⟩
  | some err => exact ⟨trivial, fun _ => ⟨trivial, fun _ => ⟨trivial, fun _ => trivial⟩⟩⟩

theorem currentMetadata_observes : ApiTask.currentMetadata.Uses Observes := by
  refine ⟨trivial, fun (current : Option LoadedModel) => ?_⟩
  cases current with
  | none => trivial
  | some _ =>
    refine ⟨trivial, fun (served : Option LoadedModel) => ?_⟩
    cases served <;> trivial

theorem modelEndpoint_observes (settings : ApiSettings) : (ApiTask.modelEndpoint service settings).Uses Observes :=
  ⟨trivial, fun _ => currentMetadata_observes.bind fun _ => ⟨trivial, fun _ => ⟨trivial, fun _ => trivial⟩⟩⟩

theorem predictRawEndpoint_quiet : (ApiTask.predictRawEndpoint service features entityId xTraceId).Uses Quiet := by
  refine (quiet_of_observes traceId_observes).bind fun tid => ?_
  split
  · refine Program.Uses.rescue ((quiet_inl predictRaw_quiet).bind fun _ => trivial) fun error => ?_
    cases error <;> trivial
  · trivial

theorem predictEntityEndpoint_quiet : (ApiTask.predictEntityEndpoint service entity xTraceId).Uses Quiet := by
  refine (quiet_of_observes traceId_observes).bind fun tid => ?_
  refine Program.Uses.rescue ((quiet_inl predictEntity_quiet).bind fun _ => trivial) fun error => ?_
  cases error with
  | raised => exact ⟨trivial, fun _ => trivial⟩
  | _ => trivial

end Quiet

/-- The answer to a refresh reports what it did at its place in the order, and
the error as of some point from there on. -/
def Reports (service : PredictionService) (id : Nat) (response : ApiResponse) (now : Api) : Prop :=
  ∃ earlier outcome seen, earlier ++ [(id, outcome)] <+: seen ∧ seen <+: now.loads ∧
    let pair := ((after service earlier).refresh outcome).1
    response.body = .refreshed pair.1 pair.2 (pair.1 != pair.2) (after service seen).lastError

/-- How a thread leaves the cache. -/
def Leaves (service : PredictionService) (id : Nat) (result : Except ServiceError ApiResult) (now : Api) :
    ApiTask → Prop
  | .refresh _ => now.server.lock ≠ some id ∧
    ∀ response, result = .ok (.response response) → response.status = 200 → Reports service id response now
  | _ => now.server.lock ≠ some id

theorem refreshRounds_serializes (rounds : Nat) (valid : Ordered service s) (outside : s.server.lock ≠ some id) :
    Serializes service id (fun _ now => now.server.lock ≠ some id) (ApiTask.refreshRounds service rounds) s := by
  induction rounds generalizing s with
  | zero => exact fun now changed _ => changed.notHeld outside
  | succ rounds ih =>
    have wait : Serializes service id (fun _ now => now.server.lock ≠ some id) ApiCall.wait.run s :=
      serializes_of_quiet ⟨trivial, fun _ => trivial⟩ outside
    refine Program.Secures.bind (Relies.refl service id) valid wait (fun _ _ _ free => free) ?_
    intro (stopped : Bool) now validNow free
    cases stopped with
    | true => exact fun later changed _ => changed.notHeld free
    | false =>
      refine Program.Secures.bind (Relies.refl service id) validNow (refreshCache_serializes now)
        (fun _ _ _ ends => ends.1) fun _ later validLater ends => ih validLater ends.1

/-- The error that a thread reads once its refresh is over is as of some point
from its place on. -/
theorem Ordered.reads_error {earlier : List (Nat × LoaderOutcome)} {outcome : LoaderOutcome} (ordered : Ordered service s)
    (placed : earlier ++ [(id, outcome)] <+: s.loads) (free : s.server.lock ≠ some id) :
    ∃ seen, earlier ++ [(id, outcome)] <+: seen ∧ seen <+: s.loads ∧ s.lastError = (after service seen).lastError := by
  obtain ⟨seen, settles, reads⟩ := ordered.lastError
  refine ⟨seen, ?_, ?_, reads⟩
  · rcases settles with all | ⟨holder, last, all, holds⟩
    · rwa [← all]
    · rw [all, List.prefix_concat_iff] at placed
      rcases placed with same | before
      · have mine := (List.append_inj_right' same rfl)
        cases mine
        exact absurd holds free
      · exact before
  · rcases settles with all | ⟨holder, last, all, -⟩
    · exact all ▸ List.prefix_rfl
    · exact all ▸ List.prefix_append ..

theorem refreshEndpoint_serializes (settings : ApiSettings) (token : Option String) (valid : Ordered service s)
    (outside : s.server.lock ≠ some id) :
    Serializes service id (fun result now => Leaves service id result now (.refresh token))
      (ApiTask.refreshEndpoint service settings token) s := by
  unfold ApiTask.refreshEndpoint
  split
  · intro now changed _
    refine ⟨changed.notHeld outside, fun response same ok => ?_⟩
    cases same
    cases ok
  · refine Program.Secures.bind (Relies.refl service id) valid (refreshCache_serializes s) ?_ ?_
    · exact fun error now _ ends => ⟨ends.1, fun response impossible => by cases impossible⟩
    · intro pair now _ ends later changed validLater error last performed
      obtain ⟨earlier, outcome, placed, returned⟩ := ends.2 pair rfl
      have free := changed.notHeld ends.1
      have placedLater := placed.trans changed.loads
      obtain ⟨seen, atLeast, upTo, reads⟩ := validLater.reads_error placedLater free
      have read : last = later ∧ error = later.lastError := by
        cases performed
        exact ⟨rfl, rfl⟩
      obtain ⟨rfl, rfl⟩ := read
      refine ⟨⟨fun other _ => Relies.refl service other last, validLater⟩, fun final changes _ => ?_⟩
      refine ⟨changes.notHeld free, fun response same _ => ?_⟩
      cases same
      refine ⟨earlier, outcome, seen, atLeast, upTo.trans changes.loads, ?_⟩
      rw [← returned, reads]

theorem body_serializes (settings : ApiSettings) (task : ApiTask) (valid : Ordered service s)
    (outside : s.server.lock ≠ some id) :
    Serializes service id (fun result now => Leaves service id result now task) (task.body service settings) s := by
  cases task with
  | loadInitial =>
    exact Program.Secures.bind (Relies.refl service id) valid (refreshCache_serializes s) (fun _ _ _ ends => ends.1)
      fun _ _ _ ends later changed _ => changed.notHeld ends.1
  | refreshLoop rounds => exact refreshRounds_serializes rounds valid outside
  | delivered err => exact serializes_of_quiet ((quiet_of_observes (onDelivery_observes err)).bind fun _ => trivial) outside
  | health => exact fun now changed _ => changed.notHeld outside
  | ready => exact serializes_of_quiet ((quiet_of_observes readiness_observes).bind fun _ => trivial) outside
  | model => exact serializes_of_quiet (quiet_of_observes (modelEndpoint_observes settings)) outside
  | refresh token => exact refreshEndpoint_serializes settings token valid outside
  | predictRaw => exact serializes_of_quiet predictRawEndpoint_quiet outside
  | predictEntity => exact serializes_of_quiet predictEntityEndpoint_quiet outside

theorem Leaves.free {result : Except ServiceError ApiResult} {task : ApiTask} (leaves : Leaves service id result s task) :
    s.server.lock ≠ some id := by
  cases task with
  | refresh => exact leaves.1
  | _ => exact leaves

theorem letGo_of_free (free : s.server.lock ≠ some id) : s.letGo id = s := by
  unfold letGo Server.letGo
  rw [if_neg free]

theorem initial_ordered (service : PredictionService) : Ordered service ApiFleet.initial.shared :=
  ⟨fun _ => rfl, ⟨[], Or.inl rfl, rfl⟩, ⟨[], Or.inl rfl, rfl⟩⟩

variable {settings : ApiSettings} {fleet : ApiFleet}

/-- The order of the refreshes throughout every run of the process, and how
every thread that has ended left the cache. -/
theorem serialized (reach : Reach (Guarded (ApiStep service settings) (Living settings)) .initial fleet) :
    Ordered service fleet.shared ∧ ∀ id, (answering service settings).Secured (Relies service) (Ordered service)
      (fun id s => s.server.lock ≠ some id) (fun id task result now => Leaves service id result now task) id
      fleet.shared (fleet.processes id) := by
  refine Workload.secured reach (initial_ordered service) (fun id => ⟨rfl, (Option.some_ne_none id).symm⟩)
    (fun id s => Relies.refl service id s) (fun _ => Relies.trans) (fun _ {_ _} changed => changed.notHeld)
    (fun {_ event} => event.elim) ?_ ?_ (fun cutOff => cutOff.elim)
  · exact fun task outside valid => body_serializes settings task valid outside
  · intro id task result s valid leaves
    have still : (answering service settings).conclude id s = s := letGo_of_free leaves.free
    rw [still]
    exact ⟨valid, fun other => Relies.refl service other s⟩

/-- **Refreshes are serialized.** However start-up, the refresh loop, refresh
requests and predictions interleave: while nobody holds the lock the cache is
the one that the loads so far leave as refreshes one after the other; the
model that is served at any moment is the one before or after the refresh at
work; and every refresh that was answered reports the versions that it went
from and to at its own place in that order. -/
theorem refreshes_serialized (reach : Reach (Guarded (ApiStep service settings) (Living settings)) .initial fleet) :
    (fleet.shared.server.lock = none → fleet.shared.cache service = after service fleet.shared.loads) ∧
    (∃ done, fleet.shared.Settles done ∧ fleet.shared.server.current = (after service done).current) ∧
    ∀ id token past response, fleet.processes id = .ended (.refresh token) past (some (.ok (.response response))) →
      response.status = 200 → Reports service id response fleet.shared := by
  obtain ⟨ordered, secured⟩ := serialized reach
  refine ⟨ordered.free, ordered.current, fun id token past response ended ok => ?_⟩
  have leaves := secured id
  rw [ended] at leaves
  exact (leaves _ (Relies.refl service id _) ordered).2 response rfl ok

section Refreshes

open Workload (reach_start reach_call reach_return)

/-- What a refresh that has let go of the lock still does. -/
def refreshAnswer (previous current : Option String) : ApiProgram ApiResult :=
  ApiCall.readLastError.run.bind fun (error : Option String) =>
  .pure (.response { status := 200, body := .refreshed previous current (previous != current) error })

/-- A refresh that gets the lock and loads another version than the served one,
up to its answer. -/
theorem reach_swapped {s : Api} {processes : Nat → ApiThread} {id : Nat} (loaded : LoadedModel)
    (reach : Reach (Guarded (ApiStep wholeService {}) (Living {})) fleet
      ⟨s, Function.update processes id (.running (.refresh (some "dev-admin-token")) []
        (ApiTask.body wholeService {} (.refresh (some "dev-admin-token"))))⟩)
    (free : s.server.lock = none)
    (swaps : ¬(s.server.current.isSome &&
      some loaded.metadata.version = s.server.current.map (·.metadata.version)) = true) :
    ∃ past, Reach (Guarded (ApiStep wholeService {}) (Living {})) fleet
      ⟨{ s with
          server := { s.server with current := some loaded, lock := none }
          lastError := none
          refreshCount := s.refreshCount + 1
          loads := s.loads ++ [(id, .loaded loaded)] },
        Function.update processes id (.running (.refresh (some "dev-admin-token")) past
          (refreshAnswer (s.server.current.map (·.metadata.version)) (some loaded.metadata.version)))⟩ := by
  have locked := reach_call reach rfl () (.service (.acquireLock free) rfl) trivial
  have read := reach_call locked rfl s.server.current (.service .readCurrent rfl) trivial
  have loads := reach_call read rfl (LoaderOutcome.loaded loaded) (.load _) trivial
  have again := reach_call loads rfl s.server.current (.service .readCurrent rfl) trivial
  have written := reach_call again ((congrArg (fun p => Program.bind p _) (if_neg swaps)).trans rfl) ()
    (.service .writeCurrent rfl) trivial
  have cleared := reach_call written rfl () .writeLastError trivial
  have counted := reach_call cleared rfl s.refreshCount .readRefreshCount trivial
  have stored := reach_call counted rfl () .writeRefreshCount trivial
  exact ⟨_, reach_call stored rfl () (.service .releaseLock rfl) trivial⟩

/-- The answer to the first refresh. -/
def firstRefreshed : ApiResponse where
  status := 200
  body := .refreshed none (some "1") true none

theorem first_refresh_reached : ∃ past, Reach (Guarded (ApiStep wholeService {}) (Living {})) .initial
    ⟨{ server := { current := some servedModel }, refreshCount := 1, loads := [(0, .loaded servedModel)] },
      Function.update (fun _ => .idle) 0
        (.ended (.refresh (some "dev-admin-token")) past (some (.ok (.response firstRefreshed))))⟩ := by
  have initial : Reach (Guarded (ApiStep wholeService {}) (Living {})) .initial
      ⟨{}, Function.update (fun _ => .idle) 0 .idle⟩ := by
    rw [Function.update_eq_self_iff.mpr rfl]
    exact .refl
  have started := reach_start initial (.refresh (some "dev-admin-token")) trivial
  obtain ⟨_, released⟩ := reach_swapped servedModel started rfl (by decide)
  have asked := reach_call released rfl (none : Option String) .readLastError trivial
  exact ⟨_, reach_return asked rfl trivial⟩

/-- The answer to a second refresh, which found another version. -/
def nextRefreshed : ApiResponse where
  status := 200
  body := .refreshed (some "1") (some "2") true none

/-- Two refreshes that wait for the lock at once. The one that gets it last
has read, loaded and answered before the other one answers. -/
theorem competing_refreshes_reached : ∃ (fleet : ApiFleet) (past last : List (Program.Exchange ServerReply)),
    Reach (Guarded (ApiStep wholeService {}) (Living {})) .initial fleet ∧
      fleet.processes 0 = .ended (.refresh (some "dev-admin-token")) past (some (.ok (.response firstRefreshed))) ∧
      fleet.processes 1 = .ended (.refresh (some "dev-admin-token")) last (some (.ok (.response nextRefreshed))) ∧
      fleet.shared.server.lock = none ∧ fleet.shared.loads = [(0, .loaded servedModel), (1, .loaded nextModel)] := by
  have initial : Reach (Guarded (ApiStep wholeService {}) (Living {})) .initial
      ⟨{}, Function.update (fun _ => .idle) 0 .idle⟩ := by
    rw [Function.update_eq_self_iff.mpr rfl]
    exact .refl
  have waiting := reach_start initial (.refresh (some "dev-admin-token")) trivial
  have other := Fleet.reach_other waiting (by decide : 1 ≠ 0)
  have bothWaiting := reach_start other (.refresh (some "dev-admin-token")) trivial
  have first := Fleet.reach_other bothWaiting (by decide : 0 ≠ 1)
  obtain ⟨_, released⟩ := reach_swapped servedModel first rfl (by decide)
  have next := Fleet.reach_other released (by decide : 1 ≠ 0)
  obtain ⟨_, released⟩ := reach_swapped nextModel next rfl (by decide)
  have asked := reach_call released rfl (none : Option String) .readLastError trivial
  have answered := reach_return asked rfl trivial
  have last := Fleet.reach_other answered (by decide : 0 ≠ 1)
  have asked := reach_call last rfl (none : Option String) .readLastError trivial
  exact ⟨_, _, _, reach_return asked rfl trivial, rfl, rfl, rfl, rfl⟩

theorem competing_refreshes_serialized : ∃ fleet : ApiFleet,
    Reach (Guarded (ApiStep wholeService {}) (Living {})) .initial fleet ∧
      fleet.shared.loads = [(0, .loaded servedModel), (1, .loaded nextModel)] ∧
      fleet.shared.cache wholeService = after wholeService fleet.shared.loads ∧
      Reports wholeService 0 firstRefreshed fleet.shared ∧ Reports wholeService 1 nextRefreshed fleet.shared := by
  obtain ⟨fleet, past, last, reach, first, next, unlocked, loads⟩ := competing_refreshes_reached
  obtain ⟨free, -, reports⟩ := refreshes_serialized reach
  exact ⟨fleet, reach, loads, free unlocked, reports 0 (some "dev-admin-token") past firstRefreshed first rfl,
    reports 1 (some "dev-admin-token") last nextRefreshed next rfl⟩

end Refreshes

end Api

end Amel
