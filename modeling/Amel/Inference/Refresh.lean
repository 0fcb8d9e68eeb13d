import Amel.Inference.OneModel
import Mathlib.Data.List.Chain

namespace Amel

open Python (Double)

/-- What a call of the loader comes to: an exception, with its `repr` and the
monotonic clock when it was caught, or a model. -/
inductive LoaderOutcome
  | raised (error : String) (caught : Double)
  | loaded (model : LoadedModel)

/-- The loader itself stands outside, as the outcomes of its calls. -/
structure ModelCache where
  name : String
  «alias» : String
  current : Option LoadedModel := none
  lastError : Option String := none
  lastErrorAt : Option Double := none
  refreshCount : Nat := 0

namespace ModelCache

/-- The version being served. -/
def version (cache : ModelCache) : Option String := cache.current.map (·.metadata.version)

/-- `ModelCache.refresh`, the pair it returns and the cache it leaves. -/
def refresh (cache : ModelCache) : LoaderOutcome → (Option String × Option String) × ModelCache
  | .raised error caught =>
    ((cache.version, cache.version), { cache with lastError := some error, lastErrorAt := some caught })
  | .loaded model =>
    if cache.current.isSome && some model.metadata.version = cache.version then
      ((cache.version, cache.version), { cache with lastError := none })
    else
      ((cache.version, some model.metadata.version),
        { cache with current := some model, lastError := none, refreshCount := cache.refreshCount + 1 })

/-- The cache after a run of refreshes. -/
def after (cache : ModelCache) (outcomes : List LoaderOutcome) : ModelCache :=
  outcomes.foldl (fun now outcome => (now.refresh outcome).2) cache

/-- What the refreshes of a run return, one after the other. -/
def returned (cache : ModelCache) : List LoaderOutcome → List (Option String × Option String)
  | [] => []
  | outcome :: later => (cache.refresh outcome).1 :: (cache.refresh outcome).2.returned later

end ModelCache

def LoaderOutcome.model : LoaderOutcome → Option LoadedModel
  | .raised _ _ => none
  | .loaded model => some model

/-- The model of the last load that succeeded. -/
def lastLoaded (outcomes : List LoaderOutcome) : Option LoadedModel := (outcomes.filterMap LoaderOutcome.model).getLast?

/-- The refreshes that the refresh route reports as `swapped`. -/
def swaps (returned : List (Option String × Option String)) : Nat :=
  returned.countP fun pair => pair.1 != pair.2

namespace ModelCache

variable {cache : ModelCache} {outcome : LoaderOutcome}

@[simp] theorem after_nil : cache.after [] = cache := rfl

@[simp] theorem after_snoc (outcomes : List LoaderOutcome) :
    cache.after (outcomes ++ [outcome]) = ((cache.after outcomes).refresh outcome).2 := by
  rw [after, List.foldl_append]
  rfl

theorem returned_snoc (outcomes : List LoaderOutcome) :
    cache.returned (outcomes ++ [outcome]) = cache.returned outcomes ++ [((cache.after outcomes).refresh outcome).1] := by
  induction outcomes generalizing cache with
  | nil => rfl
  | cons first later ih => exact congrArg ((cache.refresh first).1 :: ·) ih

/-- All that a refresh can do: it records an error, it finds the version
that is served already, or it swaps another one in. -/
theorem refresh_cases (cache : ModelCache) (outcome : LoaderOutcome) :
    (∃ error caught, outcome = .raised error caught ∧
      cache.refresh outcome = ((cache.version, cache.version),
        { cache with lastError := some error, lastErrorAt := some caught })) ∨
    (∃ model, outcome = .loaded model ∧ cache.version = some model.metadata.version ∧
      cache.refresh outcome = ((cache.version, cache.version), { cache with lastError := none })) ∨
    (∃ model, outcome = .loaded model ∧ cache.version ≠ some model.metadata.version ∧
      cache.refresh outcome = ((cache.version, some model.metadata.version),
        { cache with current := some model, lastError := none, refreshCount := cache.refreshCount + 1 })) := by
  cases outcome with
  | raised error caught => exact Or.inl ⟨error, caught, rfl, rfl⟩
  | loaded model =>
    by_cases same : cache.version = some model.metadata.version
    · have serves : cache.current.isSome = true := by
        rw [version, Option.map_eq_some_iff] at same
        obtain ⟨served, found, -⟩ := same
        rw [found]
        rfl
      exact Or.inr (Or.inl ⟨model, rfl, same, by simp [refresh, serves, same]⟩)
    · exact Or.inr (Or.inr ⟨model, rfl, same, by simp [refresh, Ne.symm same]⟩)

/-- The pair returned is the version served before and the one served after. -/
theorem refresh_returned (cache : ModelCache) (outcome : LoaderOutcome) :
    (cache.refresh outcome).1 = (cache.version, (cache.refresh outcome).2.version) := by
  rcases cache.refresh_cases outcome with ⟨error, caught, -, done⟩ | ⟨model, -, -, done⟩ | ⟨model, -, -, done⟩
  · rw [done]
    rfl
  · rw [done]
    rfl
  · rw [done]
    rfl

/-- The version served is that of the model just loaded, or it stays. -/
theorem refresh_version (cache : ModelCache) (outcome : LoaderOutcome) :
    (cache.refresh outcome).2.version = (outcome.model.map (·.metadata.version)).or cache.version := by
  rcases cache.refresh_cases outcome with ⟨error, caught, rfl, done⟩ | ⟨model, rfl, same, done⟩ | ⟨model, rfl, -, done⟩
  · rw [done]
    rfl
  · rw [done]
    exact same
  · rw [done]
    rfl

theorem refresh_count (cache : ModelCache) (outcome : LoaderOutcome) :
    (cache.refresh outcome).2.refreshCount = cache.refreshCount + swaps [(cache.refresh outcome).1] := by
  rcases cache.refresh_cases outcome with ⟨error, caught, -, done⟩ | ⟨model, -, -, done⟩ | ⟨model, -, other, done⟩
  · rw [done]
    simp [swaps]
  · rw [done]
    simp [swaps]
  · rw [done]
    simp [swaps, other]

theorem refresh_lastError (cache : ModelCache) (outcome : LoaderOutcome) :
    (cache.refresh outcome).2.lastError = none ↔ ∃ model, outcome = .loaded model := by
  rcases cache.refresh_cases outcome with ⟨error, caught, rfl, done⟩ | ⟨model, rfl, -, done⟩ | ⟨model, rfl, -, done⟩
  · simp [done]
  · simp [done]
  · simp [done]

theorem lastLoaded_snoc (outcomes : List LoaderOutcome) :
    lastLoaded (outcomes ++ [outcome]) = outcome.model.or (lastLoaded outcomes) := by
  cases outcome with
  | raised error caught => simp [lastLoaded, LoaderOutcome.model]
  | loaded model => simp [lastLoaded, LoaderOutcome.model]

/-- Over a run that starts with nothing loaded, the version served is that of
the last load that succeeded. -/
theorem after_version (fresh : cache.current = none) (outcomes : List LoaderOutcome) :
    (cache.after outcomes).version = (lastLoaded outcomes).map (·.metadata.version) := by
  induction outcomes using List.reverseRecOn with
  | nil =>
    rw [after_nil, version, fresh]
    rfl
  | append_singleton outcomes outcome ih =>
    rw [after_snoc, refresh_version, ih, lastLoaded_snoc]
    cases outcome with
    | raised error caught => rfl
    | loaded model => rfl

/-- Where a version names one model only, the model served is the one last
loaded, although a refresh that finds the version already served keeps the
model it has. -/
theorem after_current (fresh : cache.current = none) (outcomes : List LoaderOutcome)
    (identifies : ∀ one ∈ outcomes.filterMap LoaderOutcome.model, ∀ other ∈ outcomes.filterMap LoaderOutcome.model,
      one.metadata.version = other.metadata.version → one = other) :
    (cache.after outcomes).current = lastLoaded outcomes := by
  induction outcomes using List.reverseRecOn with
  | nil => exact fresh
  | append_singleton outcomes outcome ih =>
    rw [List.filterMap_append] at identifies
    have served := ih fun one here other there =>
      identifies one (List.mem_append_left _ here) other (List.mem_append_left _ there)
    rw [after_snoc, lastLoaded_snoc]
    rcases (cache.after outcomes).refresh_cases outcome with
      ⟨error, caught, rfl, done⟩ | ⟨model, rfl, same, done⟩ | ⟨model, rfl, -, done⟩
    · rw [done]
      exact served
    · rw [done]
      rw [version, served, Option.map_eq_some_iff] at same
      obtain ⟨kept, found, same⟩ := same
      have known : kept ∈ outcomes.filterMap LoaderOutcome.model := List.mem_of_getLast? found
      have equal := identifies kept (List.mem_append_left _ known) model
        (List.mem_append_right _ (List.mem_singleton.mpr rfl)) same
      exact served.trans (found.trans (congrArg some equal))
    · rw [done]
      rfl

theorem after_count (outcomes : List LoaderOutcome) :
    (cache.after outcomes).refreshCount = cache.refreshCount + swaps (cache.returned outcomes) := by
  induction outcomes using List.reverseRecOn with
  | nil => rfl
  | append_singleton outcomes outcome ih =>
    rw [after_snoc, refresh_count, ih, returned_snoc, swaps, swaps, swaps, List.countP_append, Nat.add_assoc]

/-- The first refresh starts from the version served at the start, and every
other from the one that the refresh before it left. -/
theorem returned_chain (outcomes : List LoaderOutcome) :
    (∀ first ∈ (cache.returned outcomes).head?, first.1 = cache.version) ∧
      (cache.returned outcomes).IsChain (fun one next => next.1 = one.2) := by
  induction outcomes generalizing cache with
  | nil => simp [returned]
  | cons outcome later ih =>
    obtain ⟨starts, chain⟩ := @ih (cache.refresh outcome).2
    have pair := cache.refresh_returned outcome
    constructor
    · intro first found
      cases found
      rw [pair]
    · refine List.isChain_cons.mpr ⟨fun next found => ?_, chain⟩
      rw [starts next found, pair]

/-- **A run of refreshes.** Whatever the loader does each time, after every
refresh: the version served is that of the last successful load; a failed
refresh has changed the recorded error and nothing else; `refresh_count` is
the number of swaps; an error is recorded exactly if the last refresh failed;
and the pairs returned chain, from nothing served at the start. -/
theorem refresh_invariant (name «alias» : String) (earlier : List LoaderOutcome) (outcome : LoaderOutcome) :
    let initial : ModelCache := { name, «alias» }
    let before := initial.after earlier
    let now := initial.after (earlier ++ [outcome])
    let pairs := initial.returned (earlier ++ [outcome])
    now.version = (lastLoaded (earlier ++ [outcome])).map (·.metadata.version) ∧
      (∀ error caught, outcome = .raised error caught →
        now = { before with lastError := some error, lastErrorAt := some caught }) ∧
      now.refreshCount = swaps pairs ∧
      (now.lastError = none ↔ ∃ model, outcome = .loaded model) ∧
      pairs.getLast? = some (before.version, now.version) ∧
      (∀ first ∈ pairs.head?, first.1 = none) ∧ pairs.IsChain (fun one next => next.1 = one.2) := by
  intro initial before now pairs
  have last : now = (before.refresh outcome).2 := after_snoc earlier
  obtain ⟨starts, chain⟩ := initial.returned_chain (earlier ++ [outcome])
  refine ⟨after_version rfl _, fun error caught failed => ?_, ?_, ?_, ?_, starts, chain⟩
  · rw [last, failed]
    rfl
  · exact (after_count _).trans (Nat.zero_add _)
  · rw [last]
    exact before.refresh_lastError outcome
  · rw [show pairs = initial.returned earlier ++ [(before.refresh outcome).1] from returned_snoc earlier,
      List.getLast?_concat, refresh_returned, ← last]

end ModelCache

/-- The outcome of a call of the loader, as the program of the service sees it. -/
def LoaderOutcome.reply : LoaderOutcome → Except Unit LoadedModel
  | .raised _ _ => .error ()
  | .loaded model => .ok model

/-- What the loader has answered a thread. -/
def loadReplies (past : List (Program.Exchange ServiceReply)) : List (Except Unit LoadedModel) :=
  past.filterMap fun
    | ⟨.load _ _, reply⟩ => some (reply : Except Unit LoadedModel)
    | _ => none

/-- The models a thread has put into the cache. -/
def modelsWritten (past : List (Program.Exchange ServiceReply)) : List LoadedModel :=
  past.filterMap fun
    | ⟨.writeCurrent loaded, _⟩ => some loaded
    | _ => none

/-- While nobody else writes, a refresh of the service returns what
`ModelCache.refresh` returns and leaves the same model to be served. -/
def ModelCache.Refreshes (cache : ModelCache) (outcome : LoaderOutcome) (past : List (Program.Exchange ServiceReply))
    (result : Except ServiceError (Option String × Option String)) : Prop :=
  (∀ current ∈ modelsRead past, current = cache.current) → (∀ reply ∈ loadReplies past, reply = outcome.reply) →
    result = .ok (cache.refresh outcome).1 ∧
      (modelsWritten past).getLast?.or cache.current = (cache.refresh outcome).2.current

theorem refresh_alone {service : PredictionService} (cache : ModelCache) (outcome : LoaderOutcome) :
    (refresh service).Obeys (fun _ _ => True) (cache.Refreshes outcome) [] := by
  refine ⟨trivial, fun _ => ⟨trivial, fun current => ⟨trivial, fun reply => ?_⟩⟩⟩
  match (reply : Except Unit LoadedModel) with
  | .error () =>
    refine ⟨trivial, fun _ reads loads => ?_⟩
    obtain rfl := reads current (List.mem_singleton.mpr rfl)
    have failed := loads (.error ()) (List.mem_singleton.mpr rfl)
    cases outcome with
    | raised error caught => exact ⟨rfl, rfl⟩
    | loaded model => cases failed
  | .ok loaded =>
    refine ⟨trivial, fun again => ?_⟩
    change Program.Obeys _ _ (if _ then _ else _) _
    split
    · rename_i same
      refine ⟨trivial, fun _ reads loads => ?_⟩
      obtain rfl := reads current List.mem_cons_self
      obtain rfl : again = cache.current := reads again (List.mem_cons_of_mem _ (List.mem_singleton.mpr rfl))
      have found := loads (.ok loaded) (List.mem_singleton.mpr rfl)
      cases outcome with
      | raised error caught => cases found
      | loaded model =>
        cases found
        rw [ModelCache.refresh, ModelCache.version, if_pos same]
        exact ⟨rfl, rfl⟩
    · rename_i other
      refine ⟨trivial, fun _ => ⟨trivial, fun _ reads loads => ?_⟩⟩
      obtain rfl := reads current List.mem_cons_self
      obtain rfl : again = cache.current := reads again (List.mem_cons_of_mem _ (List.mem_singleton.mpr rfl))
      have found := loads (.ok loaded) (List.mem_singleton.mpr rfl)
      cases outcome with
      | raised error caught => cases found
      | loaded model =>
        cases found
        rw [ModelCache.refresh, ModelCache.version, if_neg other]
        exact ⟨rfl, rfl⟩

end Amel
