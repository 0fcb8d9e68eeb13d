import Amel.Lake.Keys
import Amel.Python.Path

namespace Amel

open Python Python.Path

/-- What Airflow admits: `^[A-Za-z0-9_.~:+-]+$`. -/
structure RunId where
  text : String
  nonempty : text ≠ ""
  allowed : ∀ c ∈ text.toList, c.isAlphanum = true ∨ c ∈ ['_', '-', '.', '~', ':', '+']

/-- `_run_dir`. -/
def runDir (stagingDir : String) (runId : String) : List Char :=
  join stagingDir.toList (Keys.safeRunId runId).toList

/-- The files that the tasks of a run write to its directory. -/
def stagingFiles : List String :=
  ["raw_features.parquet", "raw_labels.parquet", "valid_features.parquet", "valid_labels.parquet",
    "silver_features.parquet", "silver_labels.parquet"]

namespace RunId

section
variable (stagingDir : String) (cwd : Place) (run other : RunId)

/-- Where a staging file lies. -/
def file (name : String) : Place := resolve cwd (join (runDir stagingDir run.text) name.toList)

/-- `shutil.rmtree(os.path.dirname(extracted["features_path"]))`: everything
below that place goes. -/
def removed : Place :=
  resolve cwd (dirname (join (runDir stagingDir run.text) "raw_features.parquet".toList))

/-- The end of the run deletes a staging file of the other one. -/
def Deletes : Prop := ∃ name ∈ stagingFiles, run.removed stagingDir cwd <+: other.file stagingDir cwd name

/-- No run takes the place of the other anywhere. -/
structure Separate : Prop where
  bronze : ∀ dataset date, Keys.bronzeKey dataset date run.text ≠ Keys.bronzeKey dataset date other.text
  silver : ∀ dataset date, Keys.silverKey dataset date run.text ≠ Keys.silverKey dataset date other.text
  gold : Keys.goldTrainingKey run.text ≠ Keys.goldTrainingKey other.text
  report : Keys.validationReportKey run.text ≠ Keys.validationReportKey other.text
  directory : runDir stagingDir run.text ≠ runDir stagingDir other.text
  kept : ¬run.Deletes stagingDir cwd other
  keptOther : ¬other.Deletes stagingDir cwd run

end

/-- Place by place the same character, or both one of three. -/
def Alike (run other : RunId) : Prop :=
  List.Forall₂ (fun c d => c = d ∨ c ∈ [':', '+', '_'] ∧ d ∈ [':', '+', '_']) run.text.toList other.text.toList

/-- A directory of its own below the staging directory. -/
def Ordinary (run : RunId) : Prop := run.text ≠ "." ∧ run.text ≠ ".."

variable {stagingDir : String} {cwd : Place} {run other : RunId}

theorem safe_isName (run : RunId) : Name (Keys.safeRunId run.text).toList := by
  rw [Keys.safeRunId_toList]
  constructor
  · intro empty
    exact run.nonempty (String.toList_eq_nil_iff.mp (List.map_eq_nil_iff.mp empty))
  · intro slash
    obtain ⟨c, member, same⟩ := List.mem_map.mp slash
    have itself : c = '/' := by
      unfold Keys.safeChar at same
      split at same
      · cases same
      · exact same
    subst itself
    have allowed := run.allowed '/' member
    revert allowed
    decide

theorem stagingFiles_isEntry : ∀ name ∈ stagingFiles, Entry name.toList := by
  have entries : ∀ name ∈ stagingFiles,
      (name.toList ≠ [] ∧ '/' ∉ name.toList) ∧ name.toList ≠ ['.'] ∧ name.toList ≠ ['.', '.'] := by decide +kernel
  intro name member
  obtain ⟨⟨nonempty, single⟩, notSelf, notParent⟩ := entries name member
  exact { nonempty, single, notSelf, notParent }

/-- The place of the run's directory. -/
def place (stagingDir : String) (cwd : Place) (run : RunId) : Place :=
  walk (resolve cwd stagingDir.toList) (Keys.safeRunId run.text).toList

theorem file_eq {name : String} (member : name ∈ stagingFiles) :
    run.file stagingDir cwd name = run.place stagingDir cwd ++ [name.toList] := by
  have isEntry := stagingFiles_isEntry name member
  rw [file, resolve_join isEntry.toName, walk_entry isEntry, runDir, resolve_join run.safe_isName, place]

theorem removed_eq : run.removed stagingDir cwd = run.place stagingDir cwd := by
  have isEntry := stagingFiles_isEntry "raw_features.parquet" List.mem_cons_self
  rw [removed, dirname_join isEntry.toName, runDir, resolve_join run.safe_isName, place]
  · exact join_ne_nil run.safe_isName
  · exact join_unclosed run.safe_isName

theorem deletes_of_below (below : run.place stagingDir cwd <+: other.place stagingDir cwd) :
    run.Deletes stagingDir cwd other := by
  refine ⟨"raw_features.parquet", List.mem_cons_self, ?_⟩
  rw [removed_eq, file_eq List.mem_cons_self]
  exact below.trans (List.prefix_append ..)

theorem safe_isEntry (ordinary : run.Ordinary) : Entry (Keys.safeRunId run.text).toList := by
  refine { run.safe_isName with notSelf := ?_, notParent := ?_ }
  · intro same
    exact ordinary.1 (String.toList_inj.mp (Keys.safeRunId_eq_dots 1 same))
  · intro same
    exact ordinary.2 (String.toList_inj.mp (Keys.safeRunId_eq_dots 2 same))

theorem not_deletes (ordinary : run.Ordinary) (ordinary' : other.Ordinary)
    (apart : Keys.safeRunId run.text ≠ Keys.safeRunId other.text) : ¬run.Deletes stagingDir cwd other := by
  intro ⟨name, member, below⟩
  rw [removed_eq, file_eq member, place, place, walk_entry (safe_isEntry ordinary), walk_entry (safe_isEntry ordinary'),
    List.append_assoc, List.prefix_append_right_inj, List.singleton_append, List.cons_prefix_cons] at below
  exact apart (String.toList_inj.mp below.1)

/-- The run `..` has the directory above the staging directory, and deletes
whatever lies below that. -/
theorem deletes_of_parent (parent : run.text = "..") : run.Deletes stagingDir cwd other := by
  apply deletes_of_below
  have above : run.place stagingDir cwd = (resolve cwd stagingDir.toList).dropLast := by
    rw [place, parent]
    rfl
  rw [above]
  exact parent_prefix ..

/-- The run `.` has the staging directory itself, so the other run loses its
files, or is the one above. -/
theorem deletes_of_not_ordinary (special : ¬run.Ordinary) :
    run.Deletes stagingDir cwd other ∨ other.Deletes stagingDir cwd run := by
  by_cases parent : run.text = ".."
  · exact Or.inl (deletes_of_parent parent)
  · by_cases otherParent : other.text = ".."
    · exact Or.inr (deletes_of_parent otherParent)
    · have self : run.text = "." := by
        by_contra notSelf
        exact special ⟨notSelf, parent⟩
      have itself : run.place stagingDir cwd = resolve cwd stagingDir.toList := by
        rw [place, self]
        rfl
      refine Or.inl (deletes_of_below ?_)
      rw [itself]
      exact walk_prefix fun same => otherParent (String.toList_inj.mp (Keys.safeRunId_eq_dots 2 same))

/-- Runs that are separate have staging directories of different names. -/
theorem Separate.safe_ne (separate : run.Separate stagingDir cwd other) :
    Keys.safeRunId run.text ≠ Keys.safeRunId other.text := by
  intro same
  exact separate.gold (congrArg ("training/run_id=" ++ · ++ ".parquet") same)

/-- Two runs are separate just if their ids differ in more than colons, pluses
and underscores, and each has a directory of its own. -/
theorem separate_iff : run.Separate stagingDir cwd other ↔ ¬run.Alike other ∧ run.Ordinary ∧ other.Ordinary := by
  constructor
  · intro separate
    refine ⟨?_, ?_, ?_⟩
    · intro alike
      exact separate.safe_ne (Keys.safeRunId_eq_iff.mpr alike)
    · by_contra special
      exact (deletes_of_not_ordinary special).elim separate.kept separate.keptOther
    · by_contra special
      exact (deletes_of_not_ordinary special).elim separate.keptOther separate.kept
  · intro ⟨unlike, ordinary, ordinary'⟩
    have apart : Keys.safeRunId run.text ≠ Keys.safeRunId other.text := mt Keys.safeRunId_eq_iff.mp unlike
    exact
      { bronze := fun dataset date => mt (Keys.affix_inj _ _).mp apart
        silver := fun dataset date => mt (Keys.affix_inj _ _).mp apart
        gold := mt (Keys.affix_inj _ _).mp apart
        report := mt (Keys.affix_inj _ _).mp apart
        directory := fun same =>
          apart (String.toList_inj.mp ((join_inj run.safe_isName other.safe_isName).mp same))
        kept := not_deletes ordinary ordinary' apart
        keptOther := not_deletes ordinary' ordinary apart.symm }

/-- A run id whose characters are checked one after the other. -/
def ofText (text : String) (nonempty : text ≠ "")
    (all : (text.toList.all fun c => c.isAlphanum || ['_', '-', '.', '~', ':', '+'].contains c) = true) : RunId where
  text := text
  nonempty := nonempty
  allowed c member := by
    have one := List.all_eq_true.mp all c member
    rwa [Bool.or_eq_true, List.contains_iff_mem] at one

theorem colon_collides : ∃ run other : RunId, run.text = "backfill:1" ∧ other.text = "backfill_1" ∧
    Keys.goldTrainingKey run.text = Keys.goldTrainingKey other.text ∧
      runDir "/opt/airflow/staging" run.text = runDir "/opt/airflow/staging" other.text := by
  have same : Keys.safeRunId "backfill:1" = Keys.safeRunId "backfill_1" := by decide +kernel
  refine ⟨.ofText "backfill:1" (by decide) (by decide +kernel), .ofText "backfill_1" (by decide) (by decide +kernel),
    rfl, rfl, ?_, ?_⟩
  · exact congrArg ("training/run_id=" ++ · ++ ".parquet") same
  · exact congrArg (fun safe : String => join "/opt/airflow/staging".toList safe.toList) same

end RunId

end Amel
