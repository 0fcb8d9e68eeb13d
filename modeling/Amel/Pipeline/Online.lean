import Amel.Pipeline.Alone

namespace Amel

open Transition (Reach Guarded)

variable {pipeline : Pipeline} {id : String} {s after : World} {p next : DagRun} {action : RunAction}

/-- A materialize request of the run covers the time. -/
def World.Served (s : World) (runId : String) (ts : Int) : Prop :=
  ∃ window : Int × Int, (runId, window) ∈ s.requests ∧ window.1 ≤ ts ∧ ts ≤ window.2

theorem World.Served.mono {runId : String} {ts : Int} (served : s.Served runId ts)
    (more : s.requests ⊆ after.requests) : after.Served runId ts := by
  obtain ⟨window, member, covers⟩ := served
  exact ⟨window, more member, covers⟩

theorem updateCuratedFeatures_none {table : List CuratedHiggsFeature} {df : List FeatureRow}
    (none : (updateCuratedFeatures table df id).2 = 0) : (updateCuratedFeatures table df id).1 = table := by
  have count := KeyedTable.insertBatches_snd (·.eventId) table (chunked (df.map (·.curated id)) upsertBatchSize)
  have grown := KeyedTable.insertIgnore_extends (·.eventId) table (df.map (·.curated id))
  rw [← updateCuratedFeatures_fst] at grown
  unfold updateCuratedFeatures at none grown ⊢
  exact (grown.eq_of_length (by omega)).symm

namespace Pipeline.Act

/-- Requests are only ever added, and by the run's own posts. -/
theorem requests (taken : pipeline.Act id s p action after next) :
    after.requests = s.requests ∨ ∃ window rest, p.position = .posting (window :: rest) ∧
      next.position = .posting rest ∧ after.requests = s.requests ++ [(id, window)] := by
  cases taken with
  | postWindow atPosition => exact Or.inr ⟨_, _, atPosition, rfl, rfl⟩
  | giveUp => exact Or.inl (by split <;> rfl)
  | _ => exact Or.inl (by simp only [World.stage, World.putBronze, World.putSilver, World.putReport,
      World.commitCurated, World.upsertTraining, World.putGold, World.recordPipelineRun, writeValidated,
      Pipeline.recordSuccess])

theorem requests_subset (taken : pipeline.Act id s p action after next) : s.requests ⊆ after.requests := by
  rcases taken.requests with same | ⟨_, _, -, -, added⟩
  · exact same ▸ List.Subset.refl _
  · exact added ▸ List.subset_append_left ..

/-- A row of another run was in the table before. -/
theorem curated_of_ne (taken : pipeline.Act id s p action after next) {r : CuratedHiggsFeature}
    (member : r ∈ after.curatedFeatures) (other : r.sourceRunId ≠ id) : r ∈ s.curatedFeatures := by
  rcases taken.curates with ⟨-, same, -⟩ | ⟨bounds, extraction, featuresDf, labelsDf, -, -, -, -, -, rfl⟩
  · exact same ▸ member
  · have inserted : r ∈ (updateCuratedFeatures s.curatedFeatures featuresDf id).1 := member
    rw [updateCuratedFeatures_fst] at inserted
    rcases KeyedTable.mem_insertIgnore _ inserted with old | new
    · exact old
    · obtain ⟨row, -, rfl⟩ := List.mem_map.mp new
      exact absurd rfl other

/-- A run that owes nothing afterwards inserted nothing, or has just made
its last request. -/
theorem settles (taken : pipeline.Act id s p action after next) (settled : next.unmaterialized = false) :
    after.curatedFeatures = s.curatedFeatures ∧ (p.unmaterialized = false ∨ p.position = .posting []) := by
  cases taken with
  | @commitCurated _ _ featuresDf =>
    have nothing : p.unmaterialized = false ∧ ¬0 < (updateCuratedFeatures s.curatedFeatures featuresDf id).2 := by
      simpa only [Bool.or_eq_false_iff, decide_eq_false_iff_not] using settled
    exact ⟨updateCuratedFeatures_none (by omega), Or.inl nothing.1⟩
  | finishFeatureStore atPosition => exact ⟨rfl, Or.inr atPosition⟩
  | giveUp => exact ⟨by split <;> rfl, Or.inl settled⟩
  | _ => exact ⟨by simp only [World.stage, World.putBronze, World.putSilver, World.putReport, World.upsertTraining,
      World.putGold, World.recordPipelineRun, writeValidated, Pipeline.recordSuccess], Or.inl settled⟩

theorem posting (taken : pipeline.Act id s p action after next) {windows : List (Int × Int)}
    (atPosition : next.position = .posting windows) : after.curatedFeatures = s.curatedFeatures ∧
      (windows = materializeWindowsForRun s.curatedFeatures id materializeChunkRows ∨
        ∃ window, p.position = .posting (window :: windows) ∧ (id, window) ∈ after.requests) := by
  cases taken with
  | readWindows => cases atPosition; exact ⟨rfl, Or.inl rfl⟩
  | postWindow was => cases atPosition; exact ⟨rfl, Or.inr ⟨_, was, List.mem_append_right _ (List.mem_singleton.mpr rfl)⟩⟩
  | validateFails waiting => cases waiting.symm.trans atPosition
  | _ => cases atPosition

end Pipeline.Act

/-- A run owes the feature store at most the rows it inserted since it last
completed the update, and while it posts those of the windows left. -/
structure DagRun.Owes (id : String) (s : World) (p : DagRun) : Prop where
  settled : p.unmaterialized = false → ∀ r ∈ s.curatedFeatures, r.sourceRunId = id → s.Served id r.eventTimestamp
  posting : ∀ windows, p.position = .posting windows → ∀ r ∈ s.curatedFeatures, r.sourceRunId = id →
    s.Served id r.eventTimestamp ∨ ∃ w ∈ windows, w.1 ≤ r.eventTimestamp ∧ r.eventTimestamp ≤ w.2

namespace DagRun.Owes

theorem step (owes : p.Owes id s) (taken : pipeline.Act id s p action after next) : next.Owes id after := by
  have more := taken.requests_subset
  refine ⟨fun settled r member source => ?_, fun windows atPosition r member source => ?_⟩
  · obtain ⟨same, was⟩ := taken.settles settled
    rw [same] at member
    rcases was with before | last
    · exact (owes.settled before r member source).mono more
    · rcases owes.posting [] last r member source with served | ⟨w, isLeft, -⟩
      · exact served.mono more
      · cases isLeft
  · obtain ⟨same, was⟩ := taken.posting atPosition
    rw [same] at member
    rcases was with rfl | ⟨window, before, posted⟩
    · exact Or.inr (materializeWindowsForRun_covers materializeChunkRows member source)
    · rcases owes.posting _ before r member source with served | ⟨w, isLeft, covers⟩
      · exact Or.inl (served.mono more)
      · rcases List.mem_cons.mp isLeft with rfl | rest
        · exact Or.inl ⟨w, posted, covers⟩
        · exact Or.inr ⟨w, rest, covers⟩

/-- The rows of a run are none of another run's business. -/
theorem other (owes : p.Owes id s) {acting : String} {actor : DagRun} (different : id ≠ acting)
    (taken : pipeline.Act acting s actor action after next) : p.Owes id after := by
  have more := taken.requests_subset
  have mine (r : CuratedHiggsFeature) (member : r ∈ after.curatedFeatures) (source : r.sourceRunId = id) :
      r ∈ s.curatedFeatures := taken.curated_of_ne member (source ▸ different)
  refine ⟨fun settled r member source => ?_, fun windows atPosition r member source => ?_⟩
  · exact (owes.settled settled r (mine r member source) source).mono more
  · exact (owes.posting windows atPosition r (mine r member source) source).imp_left (·.mono more)

end DagRun.Owes

theorem Pipeline.owes_of_reach {clock : ℕ+} {lake : Lake} (reach : Reach pipeline.Step (.initial clock) lake)
    (id : String) : (lake.processes id).Owes id lake.shared := by
  have owes := Fleet.invariant (fun _ => True) DagRun.Owes reach.guardTrivially
    ⟨trivial, fun _ => ⟨fun _ _ member => (nomatch member), fun _ atPosition => (nomatch atPosition)⟩⟩ ?_ ?_
  · exact owes.2 id
  · intro before event after _ happened _ each
    have same : after.curatedFeatures = before.shared.curatedFeatures ∧ after.requests = before.shared.requests := by
      cases happened <;> exact ⟨rfl, rfl⟩
    refine ⟨trivial, fun id => ⟨fun settled r member source => ?_, fun windows atPosition r member source => ?_⟩⟩
    · exact ((each id).settled settled r (same.1 ▸ member) source).mono (same.2 ▸ List.Subset.refl _)
    · exact ((each id).posting windows atPosition r (same.1 ▸ member) source).imp_left
        (·.mono (same.2 ▸ List.Subset.refl _))
  · intro before id action after next _ taken _ each
    exact ⟨trivial, (each id).step taken, fun other different => (each other).other different taken⟩

/-- A run ends in success only when no run up to its own upper bound still
owes the feature store rows that it inserted. -/
def Pipeline.CaughtUp (pipeline : Pipeline) (lake : Lake) : LakeAction → Prop
  | .inr (id, .finish) => ∀ runId, pipeline.upperBound runId ≤ pipeline.upperBound id →
    (lake.processes runId).unmaterialized = false
  | _ => True

/-- In such runs, whenever a run ends in success, every row then in the
table that came from it or an earlier run lies in the window of a request
that it or an earlier run made. -/
theorem Pipeline.online_complete {clock : ℕ+} {lake after : Lake}
    (reach : Reach (Guarded pipeline.Step pipeline.CaughtUp) (.initial clock) lake)
    (finishes : Guarded pipeline.Step pipeline.CaughtUp lake (.inr (id, .finish)) after)
    (r : CuratedHiggsFeature) (member : r ∈ after.shared.curatedFeatures)
    (earlier : pipeline.upperBound r.sourceRunId ≤ pipeline.upperBound id) :
    ∃ runId, pipeline.upperBound runId ≤ pipeline.upperBound id ∧ after.shared.Served runId r.eventTimestamp := by
  obtain ⟨taken, caughtUp⟩ := finishes
  have unmoved : after.shared.curatedFeatures = lake.shared.curatedFeatures ∧
      after.shared.requests = lake.shared.requests := by
    cases taken with
    | process taken => cases taken; exact ⟨rfl, rfl⟩
  have owes := owes_of_reach reach.forget_guard r.sourceRunId
  have served := owes.settled (caughtUp _ earlier) r (unmoved.1 ▸ member) rfl
  exact ⟨r.sourceRunId, earlier, served.mono (unmoved.2 ▸ List.Subset.refl _)⟩

theorem Pipeline.succeeded_run_online :
    let pipeline := Pipeline.accepting (fun _ => 25) fun _ => by decide
    ∃ lake, Reach pipeline.Step (.initial 20) lake ∧ lake.shared.curatedFeatures.length = 1 ∧
      ∀ r ∈ lake.shared.curatedFeatures, ∃ runId, lake.shared.Served runId r.eventTimestamp := by
  intro pipeline
  let row := HiggsFeatureEvent.of "feature" "higgs-000000000" 10
  let start : World := { clock := 30, landing := { features := [{ row with ingestedAt := 20 }] } }
  have landed : Reach (Guarded pipeline.Step pipeline.CaughtUp) (.initial 20)
      ⟨start, Function.update (fun _ => {}) "first" {}⟩ :=
    Lake.reach_landed 20 "first" [row] [] 10 fun _ _ => trivial
  obtain ⟨after, next, completes, completed, -, recorded, settled⟩ := reach_completed landed rfl
    (by decide : (25 : Int) ≤ 30) (gatePasses_accepting _ _ _ _ _)
    (fun lake action forward => by cases action <;> trivial)
  have finishes : Guarded pipeline.Step pipeline.CaughtUp ⟨after, Function.update (fun _ => {}) "first" next⟩
      (.inr ("first", .finish)) _ :=
    ⟨.process (.finish (by simp only [Function.update_self, recorded])), fun runId _ => by
      by_cases same : runId = "first"
      · simp only [same, Function.update_self, settled]
      · simp only [Function.update_of_ne same]⟩
  have silver : pipeline.silverFeatures "first" start = [row.toRow] := rfl
  have count : after.curatedFeatures.length = 1 := by
    rw [completed.curatedFeatures, silver, updateCuratedFeatures_fst]
    rfl
  refine ⟨_, completes.forget_guard.next _ finishes.1, count, fun r member => ?_⟩
  obtain ⟨runId, -, served⟩ := online_complete completes finishes r member le_rfl
  exact ⟨runId, served⟩

/-- The first run commits its row and is given up, the second finds nothing
and succeeds. -/
theorem Pipeline.abandoned_row_not_online :
    ¬∀ (pipeline : Pipeline) (clock : ℕ+) (lake after : Lake) (id : String),
      Reach pipeline.Step (.initial clock) lake → pipeline.Step lake (.inr (id, .finish)) after →
      ∀ r ∈ after.shared.curatedFeatures, pipeline.upperBound r.sourceRunId ≤ pipeline.upperBound id →
        ∃ runId, pipeline.upperBound runId ≤ pipeline.upperBound id ∧
          after.shared.Served runId r.eventTimestamp := by
  intro complete
  let pipeline := Pipeline.accepting (fun runId => if runId = "first" then 25 else 28) fun runId => by
    split <;> decide
  let row := HiggsFeatureEvent.of "feature" "higgs-000000000" 10
  let start : World := { clock := 30, landing := { features := [{ row with ingestedAt := 20 }] } }
  have landed : Reach (Guarded pipeline.Step fun _ _ => True) (.initial 20)
      ⟨start, Function.update (fun _ => {}) "first" {}⟩ :=
    Lake.reach_landed 20 "first" [row] [] 10 fun _ _ => trivial
  obtain ⟨prepared, prepares, staged⟩ := reach_prepared landed rfl (by decide : (25 : Int) ≤ 30)
    (gatePasses_accepting _ _ _ _ _) (fun _ _ _ => trivial)
  have committed := Fleet.reach_act prepares
    (.commitCurated rfl rfl rfl staged.silverFeatures staged.silverLabels) trivial
  generalize curated : prepared.commitCurated _ _ _ _ _ = s at committed
  obtain ⟨failed, abandoned⟩ : ∃ failed, Reach (Guarded pipeline.Step fun _ _ => True) (.initial 20)
      ⟨s, Function.update (fun _ => {}) "first" failed⟩ :=
    ⟨_, Fleet.reach_act committed (@Act.giveUp pipeline "first" _ _ .updateCuratedTables "timeout" false rfl) trivial⟩
  have silver : pipeline.silverFeatures "first" start = [row.toRow] := rfl
  obtain ⟨clock, requests, features, nothing⟩ : s.clock = 30 ∧ s.requests = [] ∧
      s.curatedFeatures = [({ row with ingestedAt := 20 } : HiggsFeatureEvent).toRow.curated "first"] ∧
      pipeline.silverFeatures "second" s = [] := by
    rw [← curated, staged.frame]
    refine ⟨rfl, rfl, ?_, rfl⟩
    rw [World.commitCurated, updateCuratedFeatures_fst, silver]
    rfl
  let processes : String → DagRun := Function.update (fun _ => {}) "first" failed
  have idle : Reach (Guarded pipeline.Step fun _ _ => True) (.initial 20)
      ⟨s, Function.update processes "second" {}⟩ := Fleet.reach_other abandoned (by decide)
  obtain ⟨after, next, completes, completed, -, recorded, -⟩ := reach_completed idle rfl
    (by rw [clock]; decide : pipeline.upperBound "second" ≤ s.clock) (gatePasses_accepting _ _ _ _ _)
    (fun _ _ _ => trivial)
  have tables : after.curatedFeatures = s.curatedFeatures := by
    rw [completed.curatedFeatures, nothing, updateCuratedFeatures_fst]
    rfl
  have noRequest : after.requests = [] := by
    rw [completed.requests, tables, requests, features]
    rfl
  have finishes : pipeline.Step ⟨after, Function.update processes "second" next⟩
      (.inr ("second", .finish)) _ := .process (.finish (by simp only [Function.update_self, recorded]))
  obtain ⟨runId, -, window, made, -⟩ := complete pipeline 20 _ _ "second" completes.forget_guard finishes
    (({ row with ingestedAt := 20 } : HiggsFeatureEvent).toRow.curated "first")
    (by rw [World.stage, tables, features]; exact List.mem_singleton.mpr rfl) (by decide)
  have none_made : (runId, window) ∈ after.requests := made
  rw [noRequest] at none_made
  cases none_made

end Amel
