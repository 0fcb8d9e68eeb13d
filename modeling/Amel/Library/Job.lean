import Mathlib.Logic.Function.Basic

theorem Except.bind_eq_ok {Error Value Result : Type} {first : Except Error Value} {next : Value → Except Error Result}
    {result : Result} : (first >>= next) = .ok result ↔ ∃ value, first = .ok value ∧ next value = .ok result := by
  constructor
  · intro succeeds
    cases first with
    | error error => cases succeeds
    | ok value => exact ⟨value, rfl, succeeds⟩
  · rintro ⟨value, rfl, succeeds⟩
    exact succeeds

theorem Except.pure_eq_ok {Error Value : Type} {value result : Value} :
    (pure value : Except Error Value) = .ok result ↔ value = result :=
  ⟨fun same => Except.ok.inj same, fun same => congrArg Except.ok same⟩

/-- A job reads and writes files under their paths. When it fails, what it
wrote before stays. -/
abbrev Job (Path Artifact Error : Type) := ExceptT Error (StateM (Path → Option Artifact))

namespace Job

variable {Path Artifact Error Value Result : Type}

def result (job : Job Path Artifact Error Value) (files : Path → Option Artifact) :
    Except Error Value × (Path → Option Artifact) :=
  job.run files

/-- The job turns `files` into `after` and returns `value`. -/
def Yields (job : Job Path Artifact Error Value) (files : Path → Option Artifact) (value : Value)
    (after : Path → Option Artifact) : Prop :=
  job.result files = (.ok value, after)

theorem yields_of_ok {job : Job Path Artifact Error Value} {files : Path → Option Artifact} {value : Value}
    (succeeds : (job.result files).1 = .ok value) : job.Yields files value (job.result files).2 :=
  Prod.ext succeeds rfl

/-- What stands under the path, if it is of the kind asked for. -/
def read (kind : Artifact → Option Value) (missing : Error) (path : Path) : Job Path Artifact Error Value := do
  let files ← get
  (((files path).bind kind).elim (.error missing) .ok : Except Error Value)

def write [DecidableEq Path] (path : Path) (artifact : Artifact) : Job Path Artifact Error Unit :=
  modify fun files => Function.update files path (some artifact)

variable {files after : Path → Option Artifact}

theorem yields_pure {value returned : Value} :
    (pure value : Job Path Artifact Error Value).Yields files returned after ↔ value = returned ∧ files = after := by
  have ran : (pure value : Job Path Artifact Error Value).result files = (.ok value, files) := rfl
  rw [Yields, ran, Prod.mk.injEq, Except.ok.injEq]

theorem result_bind (first : Job Path Artifact Error Value) (next : Value → Job Path Artifact Error Result) :
    (first >>= next).result files = ExceptT.bindCont next (first.result files).1 (first.result files).2 := rfl

theorem yields_bind {first : Job Path Artifact Error Value} {next : Value → Job Path Artifact Error Result}
    {returned : Result} : (first >>= next).Yields files returned after ↔
      ∃ value between, first.Yields files value between ∧ (next value).Yields between returned after := by
  unfold Yields
  rw [result_bind]
  obtain ⟨outcome, between⟩ := first.result files
  constructor
  · intro yields
    cases outcome with
    | error error => cases yields
    | ok value => exact ⟨value, between, rfl, yields⟩
  · rintro ⟨value, reached, ran, yields⟩
    cases ran
    exact yields

/-- An outcome that does not depend on the files. -/
theorem yields_lift_bind {outcome : Except Error Value} {next : Value → Job Path Artifact Error Result}
    {returned : Result} : ((liftM outcome : Job Path Artifact Error Value) >>= next).Yields files returned after ↔
      ∃ value, outcome = .ok value ∧ (next value).Yields files returned after := by
  unfold Yields
  constructor
  · intro yields
    cases outcome with
    | error error => cases yields
    | ok value => exact ⟨value, rfl, yields⟩
  · rintro ⟨value, rfl, yields⟩
    exact yields

theorem yields_lift {outcome : Except Error Value} {returned : Value} :
    (liftM outcome : Job Path Artifact Error Value).Yields files returned after ↔
      outcome = .ok returned ∧ files = after := by
  have ran : (liftM outcome : Job Path Artifact Error Value).result files = (outcome, files) := rfl
  rw [Yields, ran, Prod.mk.injEq]

theorem yields_read_bind {kind : Artifact → Option Value} {missing : Error} {path : Path}
    {next : Value → Job Path Artifact Error Result} {returned : Result} :
    (read kind missing path >>= next).Yields files returned after ↔
      ∃ value, (files path).bind kind = some value ∧ (next value).Yields files returned after := by
  have looksUp : (read kind missing path >>= next).Yields files returned after ↔
      ((liftM (((files path).bind kind).elim (Except.error missing) Except.ok) : Job Path Artifact Error Value) >>=
        next).Yields files returned after := Iff.rfl
  rw [looksUp, yields_lift_bind]
  cases (files path).bind kind <;> simp

theorem yields_write_bind [DecidableEq Path] {path : Path} {artifact : Artifact}
    {next : Unit → Job Path Artifact Error Result} {returned : Result} :
    (write path artifact >>= next).Yields files returned after ↔
      (next ()).Yields (Function.update files path (some artifact)) returned after := Iff.rfl

theorem yields_throw_bind {error : Error} {next : Value → Job Path Artifact Error Result} {returned : Result} :
    ¬((throw error : Job Path Artifact Error Value) >>= next).Yields files returned after := by
  intro yields
  cases yields

end Job
