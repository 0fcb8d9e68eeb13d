import Mathlib.Data.List.Dedup
import Mathlib.Data.Rat.Defs
import Mathlib.Algebra.Order.Ring.Rat

universe u

namespace Amel

/-- The counts of a report. Its table of failures by column and check is
written out with it and read by nothing. -/
structure ValidationReport where
  totalRows : Nat
  validRows : Nat
  invalidRows : Nat
  deriving DecidableEq, Repr

def ValidationReport.invalidFraction (report : ValidationReport) : ℚ :=
  if report.totalRows = 0 then 0 else report.invalidRows / report.totalRows

variable {Row : Type u}

/-- `validate`, given the row index of each of pandera's failure cases. -/
def validate (failureIndex : List Row → List Nat) (df : List Row) : List Row × ValidationReport :=
  if df = [] then (df, ⟨0, 0, 0⟩)
  else
    let invalidIndex := (failureIndex df).dedup
    let validDf := (df.zipIdx.filter fun (_, index) => index ∉ invalidIndex).map Prod.fst
    (validDf, ⟨df.length, validDf.length, invalidIndex.length⟩)

@[simp] theorem validate_nil (failureIndex : List Row → List Nat) : validate failureIndex [] = ([], ⟨0, 0, 0⟩) := rfl

/-- Rows are only ever left out. -/
theorem validate_sublist (failureIndex : List Row → List Nat) (df : List Row) :
    (validate failureIndex df).1.Sublist df := by
  unfold validate
  split
  · exact List.Sublist.refl df
  · have kept := (List.filter_sublist (l := df.zipIdx)
      (p := fun (_, index) => decide (index ∉ (failureIndex df).dedup))).map Prod.fst
    rwa [List.zipIdx_map_fst] at kept

end Amel
