import Mathlib.Logic.Function.Basic
import Mathlib.Order.Lattice
import Mathlib.Data.Int.Order.Basic

namespace Amel

/-- `control.pipeline_watermarks`. -/
abbrev Watermarks := String → Option Int

namespace Watermarks

def epoch : Int := 0

def get (watermarks : Watermarks) (pipelineName : String) : Int := (watermarks pipelineName).getD epoch

/-- The `GREATEST` upsert: an absent row is inserted, a stored one only
ever moves forward. -/
def advance (watermarks : Watermarks) (pipelineName : String) (newValue : Int) : Watermarks :=
  Function.update watermarks pipelineName
    (some (match watermarks pipelineName with
      | none => newValue
      | some stored => max stored newValue))

theorem get_advance_self (watermarks : Watermarks) (name : String) {newValue : Int} (later : epoch < newValue) :
    (watermarks.advance name newValue).get name = max (watermarks.get name) newValue := by
  rw [get, advance, Function.update_self, get]
  cases watermarks name with
  | none => exact (max_eq_right later.le).symm
  | some stored => rfl

theorem get_advance_of_ne (watermarks : Watermarks) {name other : String} (different : other ≠ name)
    (newValue : Int) : (watermarks.advance name newValue).get other = watermarks.get other := by
  rw [get, advance, Function.update_of_ne different, get]

theorem advance_of_le (watermarks : Watermarks) {name : String} {newValue : Int} (later : epoch < newValue)
    (below : newValue ≤ watermarks.get name) : watermarks.advance name newValue = watermarks := by
  unfold advance
  rw [Function.update_eq_self_iff]
  cases stored : watermarks name with
  | none =>
    rw [get, stored] at below
    exact absurd later (not_lt.mpr below)
  | some value =>
    rw [get, stored] at below
    exact congrArg some (max_eq_left below)

end Watermarks

end Amel
