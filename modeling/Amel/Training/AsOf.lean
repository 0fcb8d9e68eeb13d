import Amel.Pipeline.TrainingRecords
import Amel.Training.Dataset

namespace Amel

open Descending (Undisturbed newest_again_iff)
open Transition (Reach Guarded)

/-- Where a training run stands: `run_training`, or the first step of the
step pipeline, up to the as_of it logs. -/
inductive TrainingPosition
  | ready
  | loaded (labels : List CuratedHiggsLabel)
  | logged (labels : List CuratedHiggsLabel) (asOf : Datetime)
  | failed (error : String)

inductive TrainingAction
  | load
  | logAsOf

/-- The label query is one statement, so it reads one state of the table;
`(cfg.as_of or datetime.now(UTC))` comes after it. -/
inductive TrainingAct (cfg : TrainingConfig) :
    World → TrainingPosition → TrainingAction → TrainingPosition → Prop
  | loaded {s entityDf} (order : LabelOrder) : loadEntityDf order cfg.maxRows cfg.asOf s.curatedLabels = .ok entityDf →
      TrainingAct cfg s .ready .load (.loaded (queryLabels order cfg.maxRows cfg.asOf s.curatedLabels))
  | failed {s error} (order : LabelOrder) : loadEntityDf order cfg.maxRows cfg.asOf s.curatedLabels = .error error →
      TrainingAct cfg s .ready .load (.failed error)
  | logged {s labels} :
      TrainingAct cfg s (.loaded labels) .logAsOf (.logged labels (cfg.asOf.getD ⟨s.clock, some 0⟩))

/-- The configuration of a run with the as_of that it logged. -/
def TrainingConfig.pin (cfg : TrainingConfig) (asOf : Datetime) : TrainingConfig := { cfg with asOf := some asOf }

/-- Whatever order the query then gives to labels of one timestamp, it
selects these labels again. -/
def TrainingConfig.Reselects (cfg : TrainingConfig) (s : World) (labels : List CuratedHiggsLabel) : Prop :=
  ∀ position, TrainingAct cfg s .ready .load position → ∃ again, position = .loaded again ∧ again.Perm labels

/-- No label that the first query could select is later than the as_of, and
the labels up to it that were added since leave the newest ones alone. -/
structure TrainingConfig.Repeatable (cfg : TrainingConfig) (asOf : Datetime) (before after : World) : Prop where
  past : ∀ label ∈ eligible cfg.asOf before.curatedLabels, label.labelTimestamp ≤ asOf.asUtc
  undisturbed : Undisturbed (·.labelTimestamp) (rowLimit cfg.maxRows) (eligible cfg.asOf before.curatedLabels)
    (eligible (some asOf) after.curatedLabels)

variable {pipeline : Pipeline} {cfg : TrainingConfig} {s : World}

theorem mem_eligible {asOf : Option Datetime} {table : List CuratedHiggsLabel} {label : CuratedHiggsLabel} :
    label ∈ eligible asOf table ↔ label ∈ table ∧ ∀ t ∈ asOf, label.labelTimestamp ≤ t.asUtc := by
  simp [eligible, Option.all_eq_true]

/-- The primary key. -/
theorem Pipeline.curatedLabels_nodup {clock : ℕ+} {lake : Lake} (reach : Reach pipeline.Step (.initial clock) lake) :
    lake.shared.curatedLabels.Nodup := by
  have unique : (lake.shared.curatedLabels.map (·.eventId)).Nodup := by
    refine reach.invariant (fun lake => (lake.shared.curatedLabels.map (·.eventId)).Nodup) List.nodup_nil ?_
    rintro before action after - unique taken
    cases taken with
    | environment happened => exact happened.curated.2.2.1 ▸ unique
    | process taken =>
      rcases taken.curates with ⟨-, -, same, -⟩ | ⟨bounds, extraction, featuresDf, labelsDf, -, -, -, -, -, rfl⟩
      · exact same ▸ unique
      · rw [World.commitCurated, updateCuratedLabels_fst]
        exact KeyedTable.insertIgnore_keys_nodup _ unique _
  exact unique.of_map

/-- The labels of the first query stay among those up to the as_of. -/
theorem eligible_sublist {asOf : Datetime} {before after : World} (grows : before.Grows after)
    (given : ∀ t ∈ cfg.asOf, asOf = t)
    (past : ∀ label ∈ eligible cfg.asOf before.curatedLabels, label.labelTimestamp ≤ asOf.asUtc) :
    (eligible cfg.asOf before.curatedLabels).Sublist (eligible (some asOf) after.curatedLabels) := by
  have same : eligible cfg.asOf before.curatedLabels = eligible (some asOf) before.curatedLabels := by
    refine List.filter_congr fun label member => Bool.eq_iff_iff.mpr ?_
    have early := past label
    simp only [mem_eligible, member, true_and] at early
    simp only [Option.all_eq_true, Option.all_some, decide_eq_true_eq]
    exact ⟨early, fun upTo t atTime => given t atTime ▸ upTo⟩
  rw [same]
  exact grows.labels.sublist.filter _

theorem TrainingConfig.reselects_iff_perm {labels : List CuratedHiggsLabel} (some_labels : labels ≠ []) :
    cfg.Reselects s labels ↔ ∀ order : LabelOrder, (queryLabels order cfg.maxRows cfg.asOf s.curatedLabels).Perm labels := by
  constructor
  · intro reselects order
    cases result : loadEntityDf order cfg.maxRows cfg.asOf s.curatedLabels with
    | error error =>
      obtain ⟨again, none_loaded, -⟩ := reselects _ (.failed order result)
      cases none_loaded
    | ok entityDf =>
      obtain ⟨again, loaded, same⟩ := reselects _ (.loaded order result)
      cases loaded
      exact same
  · intro same position taken
    cases taken with
    | loaded order => exact ⟨_, rfl, same order⟩
    | failed order failed =>
      exfalso
      have found : queryLabels order cfg.maxRows cfg.asOf s.curatedLabels ≠ [] := fun nothing =>
        some_labels (List.perm_nil.mp (nothing ▸ (same order).symm))
      simp [loadEntityDf, found] at failed

/-- Running a configuration again with the as_of that a run of it logged
selects the labels of that run, in a given later state of the lake, exactly
when no selectable label lay after the as_of and no label reached the newest
ones from the query until then. -/
theorem Pipeline.reselects_iff {clock : ℕ+} {lake logging later : Lake} {labels : List CuratedHiggsLabel}
    {asOf : Datetime} (reach : Reach pipeline.Step (.initial clock) lake)
    (load : TrainingAct cfg lake.shared .ready .load (.loaded labels))
    (meanwhile : Reach pipeline.Step lake logging)
    (log : TrainingAct cfg logging.shared (.loaded labels) .logAsOf (.logged labels asOf))
    (onward : Reach pipeline.Step logging later) :
    (cfg.pin asOf).Reselects later.shared labels ↔ cfg.Repeatable asOf lake.shared later.shared := by
  have grows := grows_of_reach (meanwhile.trans onward)
  have unique : (eligible (some asOf) later.shared.curatedLabels).Nodup :=
    (curatedLabels_nodup (reach.trans (meanwhile.trans onward))).filter _
  have given : ∀ t ∈ cfg.asOf, asOf = t := by
    intro t atTime
    cases log with
    | logged => rw [Option.mem_def.mp atTime, Option.getD_some]
  cases load with
  | loaded order found =>
    have some_labels : queryLabels order cfg.maxRows cfg.asOf lake.shared.curatedLabels ≠ [] := by
      intro nothing
      simp [loadEntityDf, nothing] at found
    rw [TrainingConfig.reselects_iff_perm some_labels]
    constructor
    · intro again
      have past : ∀ label ∈ eligible cfg.asOf lake.shared.curatedLabels, label.labelTimestamp ≤ asOf.asUtc := by
        intro label member
        obtain ⟨newer, newest, below⟩ := order.exists_newer (rowLimit cfg.maxRows) member
        have reselected := (again order).symm.subset newest
        exact below.trans ((mem_eligible.mp (order.mem_of_mem_newest reselected)).2 asOf rfl)
      exact ⟨past, (newest_again_iff order unique (eligible_sublist grows given past)).mp again⟩
    · rintro ⟨past, undisturbed⟩
      exact (newest_again_iff order unique (eligible_sublist grows given past)).mpr undisturbed

def firstLabel : CuratedHiggsLabel := ⟨"first", "higgs-000000000", 1, 15, labelSchemaVersion, "first"⟩

def lateLabel (labelTimestamp : Int) : CuratedHiggsLabel :=
  ⟨"late", "higgs-000000001", 1, labelTimestamp, labelSchemaVersion, "second"⟩

/-- One landing transaction while nothing else moves. -/
theorem Lake.reach_lands {allowed : Lake → LakeAction → Prop} {origin : Lake} {processes : String → DagRun}
    (reach : Reach (Guarded pipeline.Step allowed) origin ⟨s, processes⟩)
    (features : List HiggsFeatureEvent) (labels : List HiggsLabelEvent) (before after : Nat)
    (allows : ∀ lake event, allowed lake (.inl event)) :
    ∃ landed, Reach (Guarded pipeline.Step allowed) origin ⟨landed, processes⟩ ∧
      landed.clock = s.clock + before + after ∧ landed.watermarks = s.watermarks ∧
      landed.curatedLabels = s.curatedLabels ∧
      landed.landing = s.landing.insert (features.map ({ · with ingestedAt := s.clock + before }))
        (labels.map ({ · with ingestedAt := s.clock + before })) := by
  have ticked := reach.next (.inl (.tick before)) ⟨.environment .tick, allows ..⟩
  have began := ticked.next (.inl (.beginLanding features labels)) ⟨.environment .beginLanding, allows ..⟩
  have committed := began.next (.inl (.commitLanding _))
    ⟨.environment (.commitLanding (List.mem_append_right _ (List.mem_singleton.mpr rfl))), allows ..⟩
  exact ⟨_, committed.next (.inl (.tick after)) ⟨.environment .tick, allows ..⟩, rfl, rfl, rfl, rfl⟩

/-- Two labels, each landed and curated by a run of its own. -/
theorem Pipeline.late_label_curated (labelTimestamp : Int) :
    let pipeline := Pipeline.accepting (fun id => if id = "first" then 25 else 45) fun id => by
      show Watermarks.epoch < if id = "first" then 25 else 45
      split <;> decide
    ∃ first second : Lake, Reach pipeline.Step (.initial 20) first ∧ Reach pipeline.Step first second ∧
      first.shared.clock = 30 ∧ first.shared.curatedLabels = [firstLabel] ∧
      second.shared.curatedLabels = [firstLabel, lateLabel labelTimestamp] := by
  intro pipeline
  let event : HiggsLabelEvent := .of "first" "higgs-000000000" 15
  let late : HiggsLabelEvent := .of "late" "higgs-000000001" labelTimestamp
  have landed : Reach (Guarded pipeline.Step fun _ _ => True) (.initial 20)
      ⟨{ clock := 30, landing := ⟨[], [{ event with ingestedAt := 20 }]⟩ }, Function.update (fun _ => {}) "first" {}⟩ :=
    Lake.reach_landed 20 "first" [] [event] 10 fun _ _ => trivial
  obtain ⟨s, next, reach, completed, advanced, -⟩ :=
    reach_succeeded landed rfl (by decide) (gatePasses_accepting _ _ _ _ _) fun _ _ => trivial
  have curated : s.curatedLabels = [firstLabel] := by
    rw [completed.curatedLabels, updateCuratedLabels_fst]
    rfl
  have start : Reach (Guarded pipeline.Step fun _ _ => True) ⟨s, Function.update (fun _ => {}) "first" next⟩ _ := .refl
  obtain ⟨s', lands, clock', watermarks', labels', landing'⟩ :=
    Lake.reach_lands start [] [late] 10 10 fun _ _ => trivial
  have due : (45 : Int) ≤ s'.clock := by
    rw [clock', advanced.clock]
    decide
  have second := Fleet.reach_other lands (by decide : "second" ≠ "first")
  obtain ⟨s₂, next₂, onward, again, -, -⟩ :=
    reach_succeeded second rfl due (gatePasses_accepting _ _ _ _ _) fun _ _ => trivial
  have silver : pipeline.silverLabels "second" s' = [late.toRow] := by
    rw [silverLabels, rawLabels, extraction, watermarks', advanced.watermarks, landing', completed.landing, advanced.clock]
    rfl
  refine ⟨_, _, reach.forget_guard, onward.forget_guard, advanced.clock, curated, ?_⟩
  rw [again.curatedLabels, updateCuratedLabels_fst, silver, labels', curated]
  rfl

/-- A training run over the first label, with the defaults. -/
theorem first_label_loaded (curated : s.curatedLabels = [firstLabel]) :
    TrainingAct {} s .ready .load (.loaded [firstLabel]) := by
  have found : loadEntityDf (.stable _) 200000 none s.curatedLabels = .ok [firstLabel.toEntity] := by
    rw [curated]
    rfl
  have load : TrainingAct {} s .ready .load (.loaded (queryLabels (.stable _) 200000 none s.curatedLabels)) :=
    .loaded (.stable _) found
  rwa [curated] at load

/-- A late label with a timestamp after the as_of changes nothing. -/
theorem Pipeline.late_label_left_out :
    ∃ (pipeline : Pipeline) (lake later : Lake), Reach pipeline.Step (.initial 20) lake ∧
      Reach pipeline.Step lake later ∧ later.shared.curatedLabels = [firstLabel, lateLabel 35] ∧
      (TrainingConfig.pin {} ⟨30, some 0⟩).Reselects later.shared [firstLabel] := by
  obtain ⟨lake, later, reach, onward, clock, curated, added⟩ := late_label_curated 35
  have log : TrainingAct {} lake.shared (.loaded [firstLabel]) .logAsOf (.logged [firstLabel] ⟨30, some 0⟩) := by
    rw [← clock]
    exact .logged
  refine ⟨_, lake, later, reach, onward, added, ?_⟩
  refine (reselects_iff reach (first_label_loaded curated) .refl log onward).mpr ⟨?_, Or.inl ⟨?_, ?_⟩⟩
  · rw [curated]
    decide
  · rw [curated]
    decide
  · rw [curated, added]
    decide

/-- A late label with a timestamp up to the as_of is selected as well. -/
theorem Pipeline.late_label_selected :
    ¬∀ (pipeline : Pipeline) (clock : ℕ+) (lake logging later : Lake) (cfg : TrainingConfig)
      (labels : List CuratedHiggsLabel) (asOf : Datetime), Reach pipeline.Step (.initial clock) lake →
      TrainingAct cfg lake.shared .ready .load (.loaded labels) → Reach pipeline.Step lake logging →
      TrainingAct cfg logging.shared (.loaded labels) .logAsOf (.logged labels asOf) →
      Reach pipeline.Step logging later → (cfg.pin asOf).Reselects later.shared labels := by
  intro reproducible
  obtain ⟨lake, later, reach, onward, clock, curated, added⟩ := late_label_curated 10
  have reselects := reproducible _ 20 lake lake later {} [firstLabel] _ reach (first_label_loaded curated) .refl .logged
    onward
  obtain ⟨again, loaded, same⟩ := reselects _ (.loaded (.stable _) (by rw [clock, added]; rfl))
  cases loaded
  rw [clock, added] at same
  exact absurd same.length_eq (by decide)

end Amel
