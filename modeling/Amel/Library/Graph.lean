import Mathlib.Data.List.Chain
import Amel.Library.Assoc
import Amel.Library.Job
import Amel.Library.Transition

open Transition

namespace Job

variable {Task Path Artifact Error Result : Type}

/-- A run of a graph of jobs: the files, and how each task that ran ended. -/
structure Run (Task Path Artifact Error Result : Type) where
  files : Path → Option Artifact
  ended : Task → Option (Except Error Result)

namespace Run

def start (files : Path → Option Artifact) : Run Task Path Artifact Error Result := ⟨files, fun _ => none⟩

def Succeeded (run : Run Task Path Artifact Error Result) (task : Task) : Prop :=
  ∃ result, run.ended task = some (.ok result)

variable [DecidableEq Task]

def perform (body : Task → Job Path Artifact Error Result) (task : Task) (run : Run Task Path Artifact Error Result) :
    Run Task Path Artifact Error Result where
  files := ((body task).result run.files).2
  ended := Function.update run.ended task (some ((body task).result run.files).1)

end Run

variable {needs : Task → List Task} {body : Task → Job Path Artifact Error Result}

/-- A task runs once, when all it needs have succeeded. -/
inductive Starts [DecidableEq Task] (needs : Task → List Task) (body : Task → Job Path Artifact Error Result) :
    Run Task Path Artifact Error Result → Task → Run Task Path Artifact Error Result → Prop
  | run {before : Run Task Path Artifact Error Result} {task : Task} (fresh : before.ended task = none)
      (ready : ∀ other ∈ needs task, before.Succeeded other) : Starts needs body before task (before.perform body task)

/-- The tasks succeed one after another with these results. -/
def Sequenced (body : Task → Job Path Artifact Error Result) :
    (Path → Option Artifact) → List (Task × Result) → (Path → Option Artifact) → Prop
  | files, [], after => files = after
  | files, (task, result) :: rest, after =>
    ∃ between, (body task).Yields files result between ∧ Sequenced body between rest after

namespace Sequenced

variable {files between after other : Path → Option Artifact} {done rest : List (Task × Result)} {task : Task}
  {result : Result}

theorem append (first : Sequenced body files done between) (second : Sequenced body between rest after) :
    Sequenced body files (done ++ rest) after := by
  induction done generalizing files with
  | nil =>
    cases first
    exact second
  | cons head tail ih =>
    obtain ⟨next, yields, first⟩ := first
    exact ⟨next, yields, ih first⟩

theorem of_append (both : Sequenced body files (done ++ rest) after) :
    ∃ between, Sequenced body files done between ∧ Sequenced body between rest after := by
  induction done generalizing files with
  | nil => exact ⟨files, rfl, both⟩
  | cons head tail ih =>
    obtain ⟨next, yields, both⟩ := both
    obtain ⟨between, first, second⟩ := ih both
    exact ⟨between, ⟨next, yields, first⟩, second⟩

theorem snoc (first : Sequenced body files done between) (yields : (body task).Yields between result after) :
    Sequenced body files (done ++ [(task, result)]) after :=
  first.append ⟨after, yields, rfl⟩

/-- A task that succeeds goes before the tasks that succeed after it. -/
theorem cons {order : List Task} (yields : (body task).Yields files result between)
    (rest : ∃ done after, done.map Prod.fst = order ∧ Sequenced body between done after) :
    ∃ done after, done.map Prod.fst = task :: order ∧ Sequenced body files done after := by
  obtain ⟨done, after, rfl, sequenced⟩ := rest
  exact ⟨(task, result) :: done, after, rfl, between, yields, sequenced⟩

end Sequenced

/-- In a chain whatever follows the first task needs one of the others. -/
theorem exists_needed {first task : Task} {rest : List Task} (chain : (first :: rest).IsChain fun a b => a ∈ needs b)
    (member : task ∈ rest) : ∃ other ∈ first :: rest, other ∈ needs task := by
  induction rest generalizing first with
  | nil => cases member
  | cons second rest ih =>
    obtain ⟨needed, chain⟩ := List.isChain_cons_cons.mp chain
    rcases List.mem_cons.mp member with rfl | later
    · exact ⟨first, List.mem_cons_self, needed⟩
    · obtain ⟨other, inRest, needed⟩ := ih chain later
      exact ⟨other, List.mem_cons_of_mem _ inRest, needed⟩

variable [DecidableEq Task] {files : Path → Option Artifact} {order : List Task}
  {run : Run Task Path Artifact Error Result}

/-- How tasks stand when these have succeeded. -/
def outcomes (Error : Type) (done : List (Task × Result)) (task : Task) : Option (Except Error Result) :=
  (done.lookup task).map .ok

theorem lookup_eq_none {done : List (Task × Result)} {task : Task} :
    done.lookup task = none ↔ task ∉ done.map Prod.fst := by
  rw [List.lookup_eq_none_iff]
  simp only [List.mem_map, not_exists, not_and, bne_iff_ne, ne_eq]
  exact forall₂_congr fun entry _ => not_congr eq_comm

theorem outcomes_eq_none {done : List (Task × Result)} {task : Task} :
    outcomes Error done task = none ↔ task ∉ done.map Prod.fst := by
  rw [outcomes, Option.map_eq_none_iff, lookup_eq_none]

theorem exists_of_outcomes {done : List (Task × Result)} {task : Task} (member : task ∈ done.map Prod.fst) :
    ∃ result, outcomes Error done task = some (.ok result) := by
  unfold outcomes
  cases found : done.lookup task with
  | none => exact absurd member (lookup_eq_none.mp found)
  | some result => exact ⟨result, rfl⟩

theorem outcomes_snoc {done : List (Task × Result)} {task : Task} (fresh : task ∉ done.map Prod.fst) (result : Result) :
    outcomes Error (done ++ [(task, result)]) = Function.update (outcomes Error done) task (some (.ok result)) := by
  funext other
  rw [outcomes, List.lookup_append, Function.update_apply]
  split
  · rename_i same
    subst same
    rw [lookup_eq_none.mpr fresh]
    simp
  · rename_i differs
    simp [List.lookup_cons, beq_false_of_ne differs, outcomes]

theorem Starts.of_yields {run : Run Task Path Artifact Error Result} {task : Task} {result : Result}
    {after : Path → Option Artifact} (fresh : run.ended task = none) (ready : ∀ other ∈ needs task, run.Succeeded other)
    (yields : (body task).Yields run.files result after) :
    Starts needs body run task ⟨after, Function.update run.ended task (some (.ok result))⟩ := by
  have performed : run.perform body task = ⟨after, Function.update run.ended task (some (.ok result))⟩ := by
    rw [Run.perform, yields]
  rw [← performed]
  exact .run fresh ready

/-- How far a run has come that takes the tasks of `order` one by one. -/
inductive Progress (body : Task → Job Path Artifact Error Result) (files : Path → Option Artifact) (order : List Task)
    (run : Run Task Path Artifact Error Result) : Prop
  | succeeding (done : List (Task × Result)) (rest : List Task) (split : order = done.map Prod.fst ++ rest)
      (sequenced : Sequenced body files done run.files) (ended : run.ended = outcomes Error done)
  | failed (done : List (Task × Result)) (task : Task) (later : List Task) (between : Path → Option Artifact)
      (error : Error) (split : order = done.map Prod.fst ++ task :: later)
      (sequenced : Sequenced body files done between)
      (fails : (body task).result between = (.error error, run.files))
      (ended : run.ended = Function.update (outcomes Error done) task (some (.error error)))

/-- Tasks of which each needs the one before run in that order only, and
none after one that failed. -/
theorem progress (chain : order.IsChain fun a b => a ∈ needs b) (distinct : order.Nodup) (all : ∀ task, task ∈ order)
    (reach : Reach (Starts needs body) (.start files) run) : Progress body files order run := by
  refine reach.invariant (Progress body files order) (.succeeding [] order rfl rfl rfl) ?_
  intro before action after _ progress start
  obtain ⟨fresh, ready⟩ := start
  have not_done : ∀ {done : List (Task × Result)} {rest : List Task} {other : Task},
      order = done.map Prod.fst ++ rest → other ∈ rest → other ∉ done.map Prod.fst :=
    fun split waiting finished => (List.nodup_append.mp (split ▸ distinct)).2.2 _ finished _ waiting rfl
  cases progress with
  | succeeding done rest split sequenced ended =>
    rw [ended, outcomes_eq_none] at fresh
    have member : action ∈ rest := (List.mem_append.mp (split ▸ all action)).resolve_left fresh
    obtain _ | ⟨first, later⟩ := rest
    · cases member
    -- What starts is the first task that has not ended: the others need one of those.
    have next : action = first := by
      by_contra differs
      obtain ⟨other, waiting, needed⟩ := exists_needed (List.IsChain.right_of_append (split ▸ chain))
        ((List.mem_cons.mp member).resolve_left differs)
      obtain ⟨result, succeeded⟩ := ready other needed
      rw [ended, outcomes_eq_none.mpr (not_done split waiting)] at succeeded
      cases succeeded
    subst next
    cases outcome : (body action).result before.files with
    | mk ran left =>
      cases ran with
      | error error =>
        refine .failed _ _ _ _ error split sequenced ?_ ?_
        · rw [outcome, Run.perform, outcome]
        · rw [Run.perform, outcome, ended]
      | ok value =>
        refine .succeeding (done ++ [(action, value)]) later (by simp [split]) ?_ ?_
        · exact sequenced.snoc (Prod.ext (by rw [outcome]) rfl)
        · rw [Run.perform, outcome, ended, outcomes_snoc fresh]
  | failed done task later between error split sequenced fails ended =>
    exfalso
    have differs : action ≠ task := by
      intro same
      rw [ended, same, Function.update_self] at fresh
      cases fresh
    rw [ended, Function.update_of_ne differs, outcomes_eq_none] at fresh
    have member : action ∈ later :=
      (List.mem_cons.mp ((List.mem_append.mp (split ▸ all action)).resolve_left fresh)).resolve_left differs
    obtain ⟨other, waiting, needed⟩ := exists_needed (List.IsChain.right_of_append (split ▸ chain)) member
    obtain ⟨result, succeeded⟩ := ready other needed
    rw [ended, Function.update_apply] at succeeded
    split at succeeded
    · cases succeeded
    · rw [outcomes_eq_none.mpr (not_done split waiting)] at succeeded
      cases succeeded

/-- When a task has run, those before it in the order have succeeded. -/
theorem Progress.before {task : Task} (progress : Progress body files order run) (ran : run.ended task ≠ none) :
    ∃ past between rest, order = past.map Prod.fst ++ task :: rest ∧ Sequenced body files past between := by
  have among : ∀ {done : List (Task × Result)} {rest : List Task} {after : Path → Option Artifact},
      order = done.map Prod.fst ++ rest → Sequenced body files done after → outcomes Error done task ≠ none →
      ∃ past between rest, order = past.map Prod.fst ++ task :: rest ∧ Sequenced body files past between := by
    intro done rest after split sequenced succeeded
    rw [Ne, outcomes_eq_none, not_not] at succeeded
    obtain ⟨⟨_, result⟩, member, rfl⟩ := List.mem_map.mp succeeded
    obtain ⟨past, more, rfl⟩ := List.append_of_mem member
    obtain ⟨between, sequenced, -⟩ := sequenced.of_append
    exact ⟨past, between, more.map Prod.fst ++ rest, by simp [split], sequenced⟩
  cases progress with
  | succeeding _ _ split sequenced ended => exact among split sequenced (ended ▸ ran)
  | failed done last later between error split sequenced fails ended =>
    by_cases same : task = last
    · subst same
      exact ⟨done, between, later, split, sequenced⟩
    · rw [ended, Function.update_of_ne same] at ran
      exact among split sequenced ran

/-- Tasks that can succeed one after another can be run so. -/
theorem Sequenced.reach (distinct : order.Nodup)
    (earlier : ∀ done task rest, order = done ++ task :: rest → needs task ⊆ done) {rest : List (Task × Result)}
    {between after : Path → Option Artifact} (past : List (Task × Result))
    (split : order = past.map Prod.fst ++ rest.map Prod.fst) (sequenced : Sequenced body between rest after) :
    Reach (Starts needs body) ⟨between, outcomes Error past⟩ ⟨after, outcomes Error (past ++ rest)⟩ := by
  induction rest generalizing past between with
  | nil =>
    cases sequenced
    rw [List.append_nil]
  | cons head rest ih =>
    obtain ⟨task, result⟩ := head
    obtain ⟨next, yields, sequenced⟩ := sequenced
    have fresh : task ∉ past.map Prod.fst := fun finished =>
      (List.nodup_append.mp (split ▸ distinct)).2.2 _ finished _ List.mem_cons_self rfl
    have ready : ∀ other ∈ needs task, (Run.mk between (outcomes Error past)).Succeeded other :=
      fun other needed => exists_of_outcomes (earlier _ _ _ split needed)
    have started := Starts.of_yields (outcomes_eq_none.mpr fresh) ready yields
    rw [← outcomes_snoc fresh] at started
    have resplit : order = (past ++ [(task, result)]).map Prod.fst ++ rest.map Prod.fst := by simp [split]
    have later := ih _ resplit sequenced
    rw [List.append_assoc, List.singleton_append] at later
    exact .head ⟨task, started⟩ later

end Job
