import Mathlib.Data.List.Perm.Lattice
import Amel.Pipeline.Alone

namespace Amel

open Transition (Reach Guarded)

/-- The rows of all gold objects together. -/
def World.goldRows (s : World) : List CuratedTrainingRecord := s.gold.entries.flatMap (·.2)

/-- The run has inserted training records that no gold object holds yet. -/
def DagRun.AwaitsPut (p : DagRun) : Prop :=
  ∃ df newCount, p.position = .trainingUpserted df newCount ∧ 0 < newCount

/-- None of the entities has a training record and no two rows share one, or
all of them have one. -/
def AllOrNone (table df : List CuratedTrainingRecord) : Prop :=
  (df.map (·.entityId)).Nodup ∧ (∀ r ∈ df, r.entityId ∉ table.map (·.entityId)) ∨
    ∀ r ∈ df, r.entityId ∈ table.map (·.entityId)

/-- An upsert inserts its frame as a whole or not at all, no attempt ends and
no run succeeds between an insert and its put, and no run puts over an
object. -/
def Pipeline.InStep (lake : Lake) : LakeAction → Prop
  | .inr (id, .upsertTraining) =>
    ∀ df, (lake.processes id).position = .trainingBuilt df → AllOrNone lake.shared.trainingRecords df
  | .inr (id, .putGold) => Keys.goldTrainingKey id ∉ lake.shared.gold
  | .inr (id, .retry) | .inr (id, .giveUp _ _) | .inr (id, .clear _) => ¬(lake.processes id).AwaitsPut
  | .inr (_, .finish) => ∀ id, ¬(lake.processes id).AwaitsPut
  | _ => True

/-- The gold objects and the frames to be put make up the table. -/
structure World.Balanced (s : World) : Prop where
  rows : (s.goldRows ++ s.unwritten.flatMap (·.2)).Perm s.trainingRecords
  distinct : s.unwritten.Nodup

/-- The frames to be put are those of the runs that await their put. -/
def DagRun.Listed (id : String) (s : World) (p : DagRun) : Prop :=
  ∀ df, (id, df) ∈ s.unwritten ↔ ∃ newCount, p.position = .trainingUpserted df newCount ∧ 0 < newCount

variable {pipeline : Pipeline} {id : String} {s after : World} {p next : DagRun} {action : RunAction}

/-- The upsert of a frame inserts it as a whole or not at all. -/
theorem upsertTrainingRecords_allOrNone {table df : List CuratedTrainingRecord} (whole : AllOrNone table df) :
    (upsertTrainingRecords table df).1 = table ++ (if 0 < (upsertTrainingRecords table df).2 then df else []) := by
  have count := upsertTrainingRecords_snd table df
  rcases whole with ⟨distinct, fresh⟩ | present
  · have inserted := KeyedTable.insertIgnore_of_fresh CuratedTrainingRecord.entityId distinct fresh
    rw [upsertTrainingRecords_fst, inserted, List.length_append] at count
    rw [upsertTrainingRecords_fst, inserted]
    split
    · rfl
    · rw [List.eq_nil_of_length_eq_zero (by omega : df.length = 0)]
  · have unchanged := KeyedTable.insertIgnore_of_present CuratedTrainingRecord.entityId present
    rw [upsertTrainingRecords_fst, unchanged] at count
    rw [upsertTrainingRecords_fst, unchanged, if_neg (by omega), List.append_nil]

theorem World.Balanced.upsert (balanced : s.Balanced) {df : List CuratedTrainingRecord}
    (whole : AllOrNone s.trainingRecords df) (unlisted : (id, df) ∉ s.unwritten) :
    (s.upsertTraining id df).Balanced := by
  have rows := upsertTrainingRecords_allOrNone whole
  by_cases inserted : 0 < (upsertTrainingRecords s.trainingRecords df).2
  · rw [if_pos inserted] at rows
    simp only [World.upsertTraining, if_pos inserted]
    refine ⟨?_, ?_⟩
    · show (s.goldRows ++ (s.unwritten ++ [(id, df)]).flatMap (·.2)).Perm _
      rw [rows, List.flatMap_append, List.flatMap_singleton, ← List.append_assoc]
      exact balanced.rows.append_right df
    · exact balanced.distinct.append (List.nodup_singleton _) (List.disjoint_singleton.mpr unlisted)
  · rw [if_neg inserted, List.append_nil] at rows
    simp only [World.upsertTraining, if_neg inserted, rows]
    exact ⟨balanced.rows, balanced.distinct⟩

theorem World.Balanced.put (balanced : s.Balanced) {df : List CuratedTrainingRecord}
    (fresh : Keys.goldTrainingKey id ∉ s.gold) (listed : (id, df) ∈ s.unwritten) : (s.putGold id df).Balanced := by
  refine ⟨?_, balanced.distinct.erase _⟩
  have put : (s.putGold id df).goldRows = df ++ s.goldRows := by
    rw [goldRows, putGold, AList.entries_insert_of_notMem fresh]
    rfl
  have split : (s.unwritten.flatMap (·.2)).Perm (df ++ (s.unwritten.erase (id, df)).flatMap (·.2)) :=
    (List.perm_cons_erase listed).flatMap_right (·.2)
  have moved : ((df ++ s.goldRows) ++ (s.unwritten.erase (id, df)).flatMap (·.2)).Perm
      (s.goldRows ++ (df ++ (s.unwritten.erase (id, df)).flatMap (·.2))) := by
    rw [← List.append_assoc]
    exact List.perm_append_comm.append_right _
  rw [put]
  exact (moved.trans (split.symm.append_left s.goldRows)).trans balanced.rows

namespace Pipeline.Act

theorem upserted (taken : pipeline.Act id s p action after next) {df : List CuratedTrainingRecord} {newCount : Nat}
    (atPosition : next.position = .trainingUpserted df newCount) : action = .upsertTraining ∧
      p.position = .trainingBuilt df ∧ newCount = (upsertTrainingRecords s.trainingRecords df).2 := by
  cases taken with
  | upsertTraining built => cases atPosition; exact ⟨rfl, built, rfl⟩
  | validateFails waiting => cases waiting.symm.trans atPosition
  | _ => cases atPosition

/-- A run that awaits its put either puts or ends its attempt. -/
theorem of_upserted (taken : pipeline.Act id s p action after next) {df : List CuratedTrainingRecord} {newCount : Nat}
    (was : p.position = .trainingUpserted df newCount) (inserted : 0 < newCount) :
    action = .putGold ∨ action = .retry ∨ (∃ error callbackRuns, action = .giveUp error callbackRuns) ∨
      ∃ task, action = .clear task := by
  cases taken <;> simp_all

end Pipeline.Act

namespace DagRun.Listed

theorem step (listed : p.Listed id s) (distinct : s.unwritten.Nodup) {processes : String → DagRun}
    (atProcess : processes id = p) (inStep : Pipeline.InStep ⟨s, processes⟩ (.inr (id, action)))
    (taken : pipeline.Act id s p action after next) : next.Listed id after := by
  subst atProcess
  intro df
  rcases taken.trains with ⟨noUpsert, noPut, -, -, same⟩ | ⟨built, rfl, was, rfl, now⟩ |
    ⟨put, count, rfl, was, inserted, rfl, now⟩
  · rw [same, listed df]
    constructor
    · rintro ⟨newCount, was, inserted⟩
      have awaits : (processes id).AwaitsPut := ⟨df, newCount, was, inserted⟩
      rcases taken.of_upserted was inserted with isPut | rfl | ⟨_, _, rfl⟩ | ⟨_, rfl⟩
      · exact absurd isPut noPut
      · exact absurd awaits inStep
      · exact absurd awaits inStep
      · exact absurd awaits inStep
    · rintro ⟨newCount, now, -⟩
      exact absurd (taken.upserted now).1 noUpsert
  · have unlisted : (id, df) ∉ s.unwritten := by
      rw [listed df, was]
      rintro ⟨_, other, -⟩
      cases other
    rw [now]
    by_cases inserted : 0 < (upsertTrainingRecords s.trainingRecords built).2
    · rw [World.upsertTraining, if_pos inserted, List.mem_append, List.mem_singleton, Prod.mk.injEq]
      constructor
      · rintro (old | ⟨-, rfl⟩)
        · exact absurd old unlisted
        · exact ⟨_, rfl, inserted⟩
      · rintro ⟨_, same, -⟩
        cases same
        exact Or.inr ⟨rfl, rfl⟩
    · rw [World.upsertTraining, if_neg inserted]
      refine iff_of_false unlisted ?_
      rintro ⟨_, same, positive⟩
      cases same
      exact inserted positive
  · rw [now]
    refine iff_of_false (fun member => ?_) (by rintro ⟨_, other, -⟩; cases other)
    have kept : (id, df) ∈ s.unwritten.erase (id, put) := member
    obtain ⟨_, same, -⟩ := (listed df).mp (List.mem_of_mem_erase kept)
    cases same.symm.trans was
    exact distinct.not_mem_erase kept

/-- What other runs put aside or put away concerns their own frames. -/
theorem other (listed : p.Listed id s) {acting : String} {actor : DagRun} (different : id ≠ acting)
    (taken : pipeline.Act acting s actor action after next) : p.Listed id after := by
  intro df
  have mine (frame : List CuratedTrainingRecord) : (id, df) ≠ (acting, frame) :=
    fun same => different (congrArg Prod.fst same)
  rw [← listed df]
  rcases taken.trains with ⟨-, -, -, -, same⟩ | ⟨built, -, -, rfl, -⟩ | ⟨put, -, -, -, -, rfl, -⟩
  · rw [same]
  · rw [World.upsertTraining]
    dsimp only
    split
    · simp only [List.mem_append, List.mem_singleton, mine built, or_false]
    · exact Iff.rfl
  · exact List.mem_erase_of_ne (mine put)

end DagRun.Listed

theorem World.Balanced.step (balanced : s.Balanced) {processes : String → DagRun}
    (listed : (processes id).Listed id s) (inStep : Pipeline.InStep ⟨s, processes⟩ (.inr (id, action)))
    (taken : pipeline.Act id s (processes id) action after next) : after.Balanced := by
  rcases taken.trains with ⟨-, -, records, gold, unwritten⟩ | ⟨df, rfl, was, rfl, -⟩ |
    ⟨df, newCount, rfl, was, inserted, rfl, -⟩
  · refine ⟨?_, unwritten ▸ balanced.distinct⟩
    rw [World.goldRows, records, gold, unwritten]
    exact balanced.rows
  · refine balanced.upsert (inStep df was) fun member => ?_
    obtain ⟨_, other, -⟩ := (listed df).mp member
    cases was.symm.trans other
  · exact balanced.put inStep ((listed df).mpr ⟨newCount, was, inserted⟩)

theorem Pipeline.balanced_of_reach {clock : ℕ+} {lake : Lake}
    (reach : Reach (Guarded pipeline.Step InStep) (.initial clock) lake) :
    lake.shared.Balanced ∧ ∀ id, (lake.processes id).Listed id lake.shared := by
  refine Fleet.invariant World.Balanced DagRun.Listed reach
    ⟨⟨.refl _, List.nodup_nil⟩, fun id df =>
      iff_of_false List.not_mem_nil (by rintro ⟨_, atPosition, -⟩; cases atPosition)⟩ ?_ ?_
  · intro before event after _ happened balanced each
    have same : after.goldRows = before.shared.goldRows ∧ after.unwritten = before.shared.unwritten ∧
        after.trainingRecords = before.shared.trainingRecords := by
      cases happened <;> exact ⟨rfl, rfl, rfl⟩
    obtain ⟨gold, unwritten, records⟩ := same
    refine ⟨⟨?_, unwritten ▸ balanced.distinct⟩, fun id df => unwritten ▸ each id df⟩
    rw [gold, unwritten, records]
    exact balanced.rows
  · intro before id action after next inStep taken balanced each
    exact ⟨balanced.step (each id) inStep taken, (each id).step balanced.distinct rfl inStep taken,
      fun other different => (each other).other different taken⟩

/-- In such runs, whenever a run ends in success, the gold objects together
hold each training record exactly once and nothing else. -/
theorem Pipeline.gold_exactly_once {clock : ℕ+} {lake after : Lake}
    (reach : Reach (Guarded pipeline.Step InStep) (.initial clock) lake)
    (finishes : Guarded pipeline.Step InStep lake (.inr (id, .finish)) after) :
    after.shared.goldRows.Perm after.shared.trainingRecords := by
  obtain ⟨taken, nothingAwaits⟩ := finishes
  obtain ⟨balanced, listed⟩ := balanced_of_reach reach
  have written : lake.shared.unwritten = [] := by
    refine List.eq_nil_iff_forall_not_mem.mpr fun (runId, df) member => ?_
    obtain ⟨newCount, atPosition, inserted⟩ := (listed runId df).mp member
    exact nothingAwaits runId ⟨df, newCount, atPosition, inserted⟩
  have rows := balanced.rows
  rw [written, List.flatMap_nil, List.append_nil] at rows
  cases taken with
  | process taken =>
    cases taken
    exact rows

/-- A feature and its label land and are curated. The join makes one record
of them, once. -/
theorem Pipeline.one_pair_curated {allowed : Lake → LakeAction → Prop}
    (events : ∀ lake event, allowed lake (.inl event))
    (quiet : ∀ lake action, RunAction.Quiet action → allowed lake (.inr ("first", action)))
    (commits : ∀ lake, allowed lake (.inr ("first", .commitCurated))) :
    let pipeline := Pipeline.accepting (fun _ => 25) fun _ => by decide
    ∃ s p record, Reach (Guarded pipeline.Step allowed) (.initial 20) ⟨s, Function.update (fun _ => {}) "first" p⟩ ∧
      p.position = .waiting .buildTrainingDataset ∧ p.Reports ∧ s.trainingRecords = [] ∧ s.gold = ∅ ∧
      buildTrainingDataset s.curatedFeatures s.curatedLabels [] "first" = [record] ∧
      buildTrainingDataset s.curatedFeatures s.curatedLabels [record] "first" = [] := by
  intro pipeline
  let feature := HiggsFeatureEvent.of "feature" "higgs-000000000" 10
  let label := HiggsLabelEvent.of "label" "higgs-000000000" 15
  let start : World :=
    { clock := 30, landing := ⟨[{ feature with ingestedAt := 20 }], [{ label with ingestedAt := 20 }]⟩ }
  have landed : Reach (Guarded pipeline.Step allowed) (.initial 20)
      ⟨start, Function.update (fun _ => {}) "first" {}⟩ :=
    Lake.reach_landed 20 "first" [feature] [label] 10 events
  obtain ⟨prepared, prepares, staged⟩ := reach_prepared landed rfl (by decide : (25 : Int) ≤ 30)
    (gatePasses_accepting _ _ _ _ _) quiet
  have committed := Fleet.reach_act prepares
    (.commitCurated rfl rfl rfl staged.silverFeatures staged.silverLabels) (commits _)
  generalize curated : prepared.commitCurated _ _ _ _ _ = s at committed
  have silver : pipeline.silverFeatures "first" start = [feature.toRow] ∧
      pipeline.silverLabels "first" start = [label.toRow] := ⟨rfl, rfl⟩
  obtain ⟨noRecords, noGold, record, build, rebuild⟩ : s.trainingRecords = [] ∧ s.gold = ∅ ∧
      ∃ record, buildTrainingDataset s.curatedFeatures s.curatedLabels [] "first" = [record] ∧
        buildTrainingDataset s.curatedFeatures s.curatedLabels [record] "first" = [] := by
    rw [← curated, staged.frame]
    refine ⟨rfl, rfl, ?_⟩
    rw [World.commitCurated, updateCuratedFeatures_fst, updateCuratedLabels_fst, silver.1, silver.2]
    exact ⟨_, rfl, rfl⟩
  have finished := Fleet.reach_act committed (.finishCurated rfl) (quiet _ .finishCurated trivial)
  exact ⟨s, _, record, finished, rfl, ⟨⟨_, rfl⟩, ⟨_, rfl⟩, ⟨_, rfl⟩, ⟨_, rfl⟩, ⟨_, rfl⟩, ⟨_, rfl⟩⟩, noRecords,
    noGold, build, rebuild⟩

/-- And the run has built that record. -/
theorem Pipeline.one_record_built {allowed : Lake → LakeAction → Prop}
    (events : ∀ lake event, allowed lake (.inl event))
    (quiet : ∀ lake action, RunAction.Quiet action → allowed lake (.inr ("first", action)))
    (commits : ∀ lake, allowed lake (.inr ("first", .commitCurated))) :
    let pipeline := Pipeline.accepting (fun _ => 25) fun _ => by decide
    ∃ s p record, Reach (Guarded pipeline.Step allowed) (.initial 20) ⟨s, Function.update (fun _ => {}) "first" p⟩ ∧
      p.position = .trainingBuilt [record] ∧ p.Reports ∧ s.trainingRecords = [] ∧ s.gold = ∅ ∧
      buildTrainingDataset s.curatedFeatures s.curatedLabels [record] "first" = [] := by
  intro pipeline
  obtain ⟨s, p, record, curated, waiting, reports, noRecords, noGold, build, rebuild⟩ :=
    one_pair_curated events quiet commits
  have returned : [record].Perm (buildTrainingDataset s.curatedFeatures s.curatedLabels s.trainingRecords "first") := by
    rw [noRecords, build]
  have built := Fleet.reach_act curated (.buildTraining waiting returned) (quiet _ .buildTraining trivial)
  exact ⟨s, _, record, built, rfl, reports, noRecords, noGold, rebuild⟩

theorem Pipeline.put_record_in_gold :
    let pipeline := Pipeline.accepting (fun _ => 25) fun _ => by decide
    ∃ lake, Reach pipeline.Step (.initial 20) lake ∧ lake.shared.trainingRecords.length = 1 ∧
      lake.shared.goldRows.Perm lake.shared.trainingRecords := by
  intro pipeline
  obtain ⟨s, p, record, built, atPosition, reports, noRecords, noGold, -⟩ :=
    @one_record_built InStep (fun _ _ => trivial) (fun _ action quiet => by cases action <;> trivial)
      (fun _ => trivial)
  have upserted := Fleet.reach_act built (.upsertTraining atPosition) (by
    intro df same
    simp only [Function.update_self] at same
    cases atPosition.symm.trans same
    rw [noRecords]
    exact Or.inl ⟨List.nodup_singleton _, fun _ _ => List.not_mem_nil⟩)
  have records : (upsertTrainingRecords s.trainingRecords [record]).1 = [record] := by
    rw [upsertTrainingRecords_fst, noRecords]
    rfl
  have count := upsertTrainingRecords_snd s.trainingRecords [record]
  rw [records, noRecords, List.length_nil, List.length_singleton] at count
  have inserted : 0 < (upsertTrainingRecords s.trainingRecords [record]).2 := by
    rw [noRecords]
    omega
  have noObject : Keys.goldTrainingKey "first" ∉ s.gold := by
    rw [noGold]
    exact AList.notMem_empty _
  have put := Fleet.reach_act upserted (.putGold rfl inserted) noObject
  let stored : DagRun := { p with
    position := .waiting .updateFeatureStore
    gold := some ((upsertTrainingRecords s.trainingRecords [record]).2, some (Keys.goldTrainingKey "first")) }
  obtain ⟨after, next, emits, world, recorded, -⟩ := @emit_alone pipeline "first" _ stored rfl reports rfl
  have emitted := Fleet.reach_alone put emits fun _ action _ quiet => by cases action <;> trivial
  have finishes : Guarded pipeline.Step InStep ⟨after, Function.update (fun _ => {}) "first" next⟩
      (.inr ("first", .finish)) _ :=
    ⟨.process (.finish (by simp only [Function.update_self, recorded])), by
      rintro id ⟨df, newCount, awaits, -⟩
      by_cases same : id = "first"
      · simp only [same, Function.update_self, recorded, reduceCtorEq] at awaits
      · simp only [Function.update_of_ne same, reduceCtorEq] at awaits⟩
  have length : after.trainingRecords.length = 1 := by
    rw [world]
    exact congrArg List.length records
  exact ⟨_, emitted.forget_guard.next _ finishes.1, length, gold_exactly_once emitted finishes⟩

/-- An attempt that ends between the upsert and the put: the next one finds
no new records and writes no object. -/
theorem Pipeline.interrupted_put_lost :
    ¬∀ (pipeline : Pipeline) (clock : ℕ+) (lake after : Lake) (id : String),
      Reach pipeline.Step (.initial clock) lake → pipeline.Step lake (.inr (id, .finish)) after →
      after.shared.goldRows.Perm after.shared.trainingRecords := by
  intro exactly
  let pipeline := Pipeline.accepting (fun _ => 25) fun _ => by decide
  obtain ⟨s, p, record, built, atPosition, reports, noRecords, noGold, rebuild⟩ :=
    @one_record_built (fun _ _ => True) (fun _ _ => trivial) (fun _ _ _ => trivial) (fun _ => trivial)
  have upserted := Fleet.reach_act built (.upsertTraining atPosition) trivial
  have retried := Fleet.reach_act upserted (.retry rfl) trivial
  have records : (s.upsertTraining "first" [record]).trainingRecords = [record] := by
    rw [World.upsertTraining, upsertTrainingRecords_fst, noRecords]
    rfl
  have noObject : (s.upsertTraining "first" [record]).gold = ∅ := noGold
  have remaining : buildTrainingDataset (s.upsertTraining "first" [record]).curatedFeatures
      (s.upsertTraining "first" [record]).curatedLabels [record] "first" = [] := rebuild
  generalize s.upsertTraining "first" [record] = s₂ at retried records noObject remaining
  have returned : [].Perm (buildTrainingDataset s₂.curatedFeatures s₂.curatedLabels s₂.trainingRecords "first") := by
    rw [records, remaining]
  have rebuilt := Fleet.reach_act retried (.buildTraining rfl returned) trivial
  have again := Fleet.reach_act rebuilt (.upsertTraining rfl) trivial
  have nothing : (upsertTrainingRecords s₂.trainingRecords []).2 = 0 := rfl
  have skipped := Fleet.reach_act again (.skipGold rfl (by rw [nothing]; exact lt_irrefl 0)) trivial
  let none_stored : DagRun := { p with
    position := .waiting .updateFeatureStore, gold := some ((upsertTrainingRecords s₂.trainingRecords []).2, none) }
  obtain ⟨after, next, emits, world, recorded, -⟩ := @emit_alone pipeline "first" _ none_stored rfl reports rfl
  have emitted := Fleet.reach_alone skipped emits fun _ _ _ _ => trivial
  have finished := exactly pipeline 20 _ _ "first" emitted.forget_guard
    (.process (.finish (by simp only [Function.update_self, recorded])))
  have none_written : (after.gold.entries.flatMap (·.2)).Perm after.trainingRecords := finished
  rw [world] at none_written
  have empty : (s₂.gold.entries.flatMap (·.2)).Perm (upsertTrainingRecords s₂.trainingRecords []).1 := none_written
  rw [noObject, records] at empty
  cases empty.length_eq

end Amel
