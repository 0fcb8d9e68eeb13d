import Amel.Common.Events
import Amel.Library.Windows

namespace Amel

/-- `_as_utc`: a naive datetime is read as UTC, an aware one converted. -/
def Datetime.asUtc (datetime : Datetime) : Int := datetime.wall - datetime.utcoffset.getD 0

def Datetime.utc (instant : Int) : Datetime := ⟨instant, some 0⟩

@[simp] theorem Datetime.asUtc_utc (instant : Int) : (Datetime.utc instant).asUtc = instant := by
  simp [asUtc, utc]

/-- `materialization_intervals` of the feature view: both writers append. -/
abbrev Registry := List (Datetime × Datetime)

namespace Backfill

def windows (start stop : Int) (boundaries : List Int) : List (Int × Int) :=
  Windows.split start stop boundaries

def sourceBounds (source : List Int) : Option (Int × Int) :=
  match source.min?, source.max? with
  | some srcMin, some srcMax => some (srcMin, srcMax)
  | _, _ => none

/-- Every `chunk_rows`-th timestamp of the rows in the closed range. -/
def chunkBoundaries (source : List Int) (start stop : Int) (chunkRows : ℕ+) : List Int :=
  Windows.everyNth chunkRows ((source.filter fun ts => start ≤ ts ∧ ts ≤ stop).insertionSort (· ≤ ·))

def resumePoint (registry : Registry) : Option Int := (registry.map (·.2.asUtc)).max?

/-- `plan`; `none` where `min` meets a naive `end` and raises TypeError. -/
def plan (source : List Int) (registry : Registry) (stop : Datetime) (chunkRows : ℕ+) :
    Option (List (Int × Int)) :=
  match sourceBounds source with
  | none => some []
  | some (srcMin, srcMax) =>
    if stop.utcoffset.isNone then none
    else
      let start := (resumePoint registry).getD srcMin
      let stop := min stop.asUtc srcMax
      if stop ≤ start then some [] else some (windows start stop (chunkBoundaries source start stop chunkRows))

/-- `materialize_chunked` when every `store.materialize` succeeds: the
registry it leaves and the number of windows. -/
def materializeChunked (source : List Int) (registry : Registry) (stop : Datetime) (chunkRows : ℕ+) :
    Option (Registry × Nat) :=
  (plan source registry stop chunkRows).map fun planned =>
    (registry ++ planned.map fun (lo, hi) => (Datetime.utc lo, Datetime.utc hi), planned.length)

end Backfill

def Registry.Covers (registry : Registry) (ts : Int) : Prop :=
  ∃ interval ∈ registry, interval.1.asUtc ≤ ts ∧ ts ≤ interval.2.asUtc

def Registry.Proper (registry : Registry) : Prop :=
  ∀ interval ∈ registry, interval.1.asUtc < interval.2.asUtc

namespace Backfill

variable {source : List Int} {registry after : Registry} {stop : Datetime} {chunkRows : ℕ+} {count : Nat}

/-- Every source row up to the requested end, or to the newest row where
that is earlier, lies in a recorded interval. -/
def Complete (source : List Int) (registry : Registry) (stop : Datetime) : Prop :=
  ∀ srcMin srcMax, sourceBounds source = some (srcMin, srcMax) →
    ∀ ts ∈ source, ts ≤ min stop.asUtc srcMax → registry.Covers ts

/-- Nothing the resume point skips is missing: on a first run the range is
not the single instant of the oldest row, and otherwise each row below the
resume point was materialized before. -/
def Resumable (source : List Int) (registry : Registry) (stop : Datetime) : Prop :=
  ∀ srcMin srcMax, sourceBounds source = some (srcMin, srcMax) →
    match resumePoint registry with
    | none => min stop.asUtc srcMax ≠ srcMin
    | some resume => ∀ ts ∈ source, ts ≤ min stop.asUtc srcMax → ts < resume → registry.Covers ts

theorem sourceBounds_spec {srcMin srcMax : Int} (bounds : sourceBounds source = some (srcMin, srcMax)) :
    (srcMin ∈ source ∧ ∀ ts ∈ source, srcMin ≤ ts) ∧ srcMax ∈ source ∧ ∀ ts ∈ source, ts ≤ srcMax := by
  unfold sourceBounds at bounds
  split at bounds
  · rename_i least greatest
    cases bounds
    exact ⟨List.min?_eq_some_iff.mp least, List.max?_eq_some_iff.mp greatest⟩
  · cases bounds

theorem covers_append {more : Registry} {ts : Int} :
    (registry ++ more).Covers ts ↔ registry.Covers ts ∨ more.Covers ts := by
  simp only [Registry.Covers, List.mem_append, or_and_right, exists_or]

theorem covers_recorded {planned : List (Int × Int)} {ts : Int} :
    Registry.Covers (planned.map fun (lo, hi) => (Datetime.utc lo, Datetime.utc hi)) ts ↔
      ∃ w ∈ planned, w.1 ≤ ts ∧ ts ≤ w.2 := by
  simp [Registry.Covers]

/-- What the registry covers after a call: what it covered before, and the
closed range from the start to the end where that is proper. -/
theorem materializeChunked_covers {srcMin srcMax : Int} (bounds : sourceBounds source = some (srcMin, srcMax))
    (returned : materializeChunked source registry stop chunkRows = some (after, count)) (ts : Int) :
    after.Covers ts ↔ registry.Covers ts ∨
      (resumePoint registry).getD srcMin < min stop.asUtc srcMax ∧ (resumePoint registry).getD srcMin ≤ ts ∧
        ts ≤ min stop.asUtc srcMax := by
  unfold materializeChunked plan at returned
  rw [bounds] at returned
  dsimp only at returned
  split at returned
  · cases returned
  · split at returned
    · rename_i done
      cases returned
      rw [List.map_nil, List.append_nil]
      refine ⟨Or.inl, fun covered => covered.resolve_right fun inRange => ?_⟩
      omega
    · rename_i proper
      cases returned
      rw [covers_append, covers_recorded]
      refine or_congr_right ⟨fun ⟨w, member, low, high⟩ => ?_, fun ⟨_, low, high⟩ => ?_⟩
      · have inside := Windows.split_inside (by omega) member
        omega
      · exact Windows.split_covers _ (by omega) low high

/-- A backfill that returns normally leaves every source row up to the end
materialized exactly when the resume point skips none that is missing. -/
theorem materialize_complete_iff (proper : registry.Proper)
    (returned : materializeChunked source registry stop chunkRows = some (after, count)) :
    Complete source after stop ↔ Resumable source registry stop := by
  refine forall₃_congr fun srcMin srcMax bounds => ?_
  obtain ⟨⟨minMember, least⟩, -, -⟩ := sourceBounds_spec bounds
  have covers := materializeChunked_covers bounds returned
  cases resumed : resumePoint registry with
  | none =>
    have fresh : registry = [] := by simpa [resumePoint] using resumed
    have nothing (ts : Int) : ¬registry.Covers ts := by
      rw [fresh]
      rintro ⟨interval, member, -⟩
      cases member
    simp only [resumed, Option.getD_none] at covers
    constructor
    · intro complete single
      have covered := ((covers srcMin).mp (complete srcMin minMember single.ge)).resolve_left (nothing srcMin)
      omega
    · intro several ts member below
      have low := least ts member
      exact (covers ts).mpr (Or.inr ⟨by omega, low, below⟩)
  | some resume =>
    simp only [resumed, Option.getD_some] at covers
    have recorded : registry.Covers resume := by
      obtain ⟨member, -⟩ := List.max?_eq_some_iff.mp resumed
      obtain ⟨interval, inRegistry, rfl⟩ := List.mem_map.mp member
      exact ⟨interval, inRegistry, (proper interval inRegistry).le, le_rfl⟩
    constructor
    · intro complete ts member below skipped
      rcases (covers ts).mp (complete ts member below) with old | new
      · exact old
      · omega
    · intro resumable ts member below
      rcases lt_trichotomy ts resume with skipped | rfl | later
      · exact (covers ts).mpr (Or.inl (resumable ts member below skipped))
      · exact (covers ts).mpr (Or.inl recorded)
      · exact (covers ts).mpr (Or.inr ⟨by omega, later.le, below⟩)

/-- Three rows and a registry that ends at the second. -/
theorem resumed_backfill_complete :
    Complete [10, 20, 30] [(.utc 10, .utc 20), (.utc 20, .utc 30)] (.utc 40) := by
  have proper : Registry.Proper [(.utc 10, .utc 20)] := by simp [Registry.Proper]
  have returned : materializeChunked [10, 20, 30] [(.utc 10, .utc 20)] (.utc 40) 25000 =
      some ([(.utc 10, .utc 20), (.utc 20, .utc 30)], 1) := by decide
  refine (materialize_complete_iff proper returned).mpr ?_
  rintro srcMin srcMax - ts member - skipped
  have below : ts < 20 := skipped
  simp only [List.mem_cons, List.not_mem_nil, or_false] at member
  refine ⟨_, List.mem_singleton.mpr rfl, ?_⟩
  simp only [Datetime.asUtc_utc]
  omega

/-- A table whose rows share one timestamp is never materialized: the first
run finds its start at its end. -/
theorem single_timestamp_skipped :
    ¬∀ (source : List Int) (registry : Registry) (stop : Datetime) (chunkRows : ℕ+) (after : Registry)
      (count : Nat), registry.Proper → materializeChunked source registry stop chunkRows = some (after, count) →
      Complete source after stop := by
  intro complete
  have returned : materializeChunked [10, 10] [] (.utc 40) 25000 = some ([], 0) := by decide
  have covered := complete [10, 10] [] (.utc 40) 25000 [] 0 nofun returned 10 10 (by decide) 10 (by decide) (by decide)
  obtain ⟨interval, member, -⟩ := covered
  cases member

end Backfill

end Amel
