import Mathlib.Data.List.Forall2
import Amel.Python.Format

namespace Amel.Keys

open Python (isoDate)

/-- `run_id.replace(":", "_").replace("+", "_")`. -/
def safeRunId (runId : String) : String :=
  String.ofList (runId.toList.map fun c => if c = ':' ∨ c = '+' then '_' else c)

/-- Bronze and silver use one layout in different buckets. The date is that
of the run's upper bound. -/
def datasetKey (dataset : String) (eventDate : Int) (runId : String) : String :=
  "higgs/" ++ dataset ++ "/dt=" ++ isoDate eventDate ++ "/run_id=" ++ safeRunId runId ++ ".parquet"

def bronzeKey (dataset : String) (eventDate : Int) (runId : String) : String := datasetKey dataset eventDate runId

def silverKey (dataset : String) (eventDate : Int) (runId : String) : String := datasetKey dataset eventDate runId

def goldTrainingKey (runId : String) : String := "training/run_id=" ++ safeRunId runId ++ ".parquet"

def validationReportKey (runId : String) : String :=
  "artifacts/validation_reports/run_id=" ++ safeRunId runId ++ ".json"

/-- The character that a run id's character becomes. -/
def safeChar (c : Char) : Char := if c = ':' ∨ c = '+' then '_' else c

theorem safeRunId_toList (runId : String) : (safeRunId runId).toList = runId.toList.map safeChar := by
  rw [safeRunId, String.toList_ofList]
  rfl

theorem safeChar_eq_iff {c d : Char} :
    safeChar c = safeChar d ↔ c = d ∨ c ∈ [':', '+', '_'] ∧ d ∈ [':', '+', '_'] := by
  simp only [safeChar, List.mem_cons, List.not_mem_nil, or_false]
  grind

/-- Run ids become the same just if they differ in nothing but colons, pluses
and underscores. -/
theorem safeRunId_eq_iff {runId other : String} :
    safeRunId runId = safeRunId other ↔
      List.Forall₂ (fun c d => c = d ∨ c ∈ [':', '+', '_'] ∧ d ∈ [':', '+', '_']) runId.toList other.toList := by
  simp only [← safeChar_eq_iff]
  rw [← String.toList_inj, safeRunId_toList, safeRunId_toList, ← List.forall₂_eq_eq_eq, List.forall₂_map_left_iff,
    List.forall₂_map_right_iff]

/-- Dots stand for themselves only. -/
theorem safeRunId_eq_dots {runId : String} (n : Nat) (same : (safeRunId runId).toList = List.replicate n '.') :
    runId.toList = List.replicate n '.' := by
  rw [safeRunId_toList] at same
  have itself : ∀ c ∈ runId.toList, safeChar c = c := by
    intro c member
    have dot : safeChar c = '.' := List.eq_of_mem_replicate (same ▸ List.mem_map_of_mem member)
    unfold safeChar at dot ⊢
    split at dot
    · cases dot
    · rename_i other
      exact if_neg other
  rwa [List.map_congr_left itself, List.map_id'] at same

/-- A key is a run id between two texts. -/
theorem affix_inj (before after : String) {runId other : String} :
    before ++ safeRunId runId ++ after = before ++ safeRunId other ++ after ↔ safeRunId runId = safeRunId other := by
  rw [← String.toList_inj]
  simp only [String.toList_append, List.append_cancel_right_eq, List.append_cancel_left_eq, String.toList_inj]

/-- The two datasets never share a key. -/
theorem datasetKey_ne (date : Int) (runId : String) (otherDate : Int) (otherRun : String) :
    datasetKey "features" date runId ≠ datasetKey "labels" otherDate otherRun := by
  intro same
  have chars := congrArg (fun s => s.toList[6]?) same
  simp [datasetKey] at chars

end Amel.Keys
