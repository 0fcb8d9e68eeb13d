import Mathlib.Data.String.Basic
import Amel.Library.Sorting
import Amel.Training.Dataset

namespace Amel

open Python (Double)

/-- The order of `sort_values(["entity_id", "event_timestamp"])`. -/
def EntityRow.KeyLe (a b : EntityRow) : Prop :=
  a.entityId < b.entityId ∨ a.entityId = b.entityId ∧ a.eventTimestamp ≤ b.eventTimestamp

instance : DecidableRel EntityRow.KeyLe := fun a b =>
  inferInstanceAs (Decidable (a.entityId < b.entityId ∨ a.entityId = b.entityId ∧ a.eventTimestamp ≤ b.eventTimestamp))

namespace EntityRow

theorem keyLe_total (a b : EntityRow) : a.KeyLe b ∨ b.KeyLe a := by
  rcases lt_trichotomy a.entityId b.entityId with before | same | after
  · exact Or.inl (Or.inl before)
  · rcases Int.le_total a.eventTimestamp b.eventTimestamp with early | late
    · exact Or.inl (Or.inr ⟨same, early⟩)
    · exact Or.inr (Or.inr ⟨same.symm, late⟩)
  · exact Or.inr (Or.inl after)

theorem KeyLe.trans {a b c : EntityRow} (ab : a.KeyLe b) (bc : b.KeyLe c) : a.KeyLe c := by
  rcases ab with before | ⟨same, early⟩
  · rcases bc with after | ⟨same', _⟩
    · exact Or.inl (before.trans after)
    · exact Or.inl (same' ▸ before)
  · rcases bc with after | ⟨same', early'⟩
    · exact Or.inl (same ▸ after)
    · exact Or.inr ⟨same.trans same', early.trans early'⟩

instance : Std.Total KeyLe := ⟨keyLe_total⟩

instance : IsTrans EntityRow KeyLe := ⟨fun _ _ _ => KeyLe.trans⟩

/-- Two rows of one entity at one time. -/
def Tied (a b : EntityRow) : Prop := a.entityId = b.entityId ∧ a.eventTimestamp = b.eventTimestamp

instance (a b : EntityRow) : Decidable (a.Tied b) :=
  inferInstanceAs (Decidable (a.entityId = b.entityId ∧ a.eventTimestamp = b.eventTimestamp))

theorem Tied.keyLe {a b : EntityRow} (tied : a.Tied b) : a.KeyLe b := Or.inr ⟨tied.1, tied.2.le⟩

theorem tied_of_keyLe {a b : EntityRow} (ab : a.KeyLe b) (ba : b.KeyLe a) : a.Tied b := by
  rcases ab with before | ⟨same, early⟩
  · rcases ba with after | ⟨same', _⟩
    · exact absurd (before.trans after) (lt_irrefl _)
    · exact absurd before (same' ▸ lt_irrefl _)
  · rcases ba with after | ⟨_, late⟩
    · exact absurd after (same ▸ lt_irrefl _)
    · exact ⟨same, le_antisymm early late⟩

end EntityRow

namespace TrainingFrame

/-- The keyed rows of the frame as they are hashed. -/
def keyed (df : TrainingFrame) : List EntityRow := (df.rows.map (·.toEntity)).insertionSort EntityRow.KeyLe

variable {rowHashes : List EntityRow → String} {df other : TrainingFrame} {featureView version : String}

theorem fingerprint_eq (rowHashes : List EntityRow → String) (df : TrainingFrame) (featureView version : String) :
    (datasetVersion rowHashes df featureView version).fingerprint = rowHashes df.keyed := rfl

/-- No reordering of the rows changes the fingerprint. -/
def OrderBlind (rowHashes : List EntityRow → String) (df : TrainingFrame) : Prop :=
  ∀ (shuffled : TrainingFrame) (featureView version : String), shuffled.rows.Perm df.rows →
    (datasetVersion rowHashes shuffled featureView version).fingerprint =
      (datasetVersion rowHashes df featureView version).fingerprint

/-- Rows of one entity at one time have one target. -/
def TiesAgree (df : TrainingFrame) : Prop :=
  ∀ a ∈ df.rows, ∀ b ∈ df.rows, a.toEntity.Tied b.toEntity → a.target = b.target

/-- The frame with one of its rows brought to the top. -/
def bringUp (df : TrainingFrame) (row : TrainingRow) (member : row ∈ df.rows) : TrainingFrame where
  columns := df.columns
  rows := row :: df.rows.erase row
  aligned other present := df.aligned other ((List.perm_cons_erase member).mem_iff.mpr present)

theorem bringUp_perm (row : TrainingRow) (member : row ∈ df.rows) : (df.bringUp row member).rows.Perm df.rows :=
  (List.perm_cons_erase member).symm

/-- With a row brought to the top, it is the first of its key among the rows hashed. -/
theorem find_keyed_bringUp {row tied : TrainingRow} (member : row ∈ df.rows) (same : tied.toEntity.Tied row.toEntity) :
    (df.bringUp row member).keyed.find? (fun key => tied.toEntity.Tied key) = some row.toEntity := by
  have all (a b : EntityRow) (first : decide (tied.toEntity.Tied a) = true) (second : decide (tied.toEntity.Tied b) = true) :
      a.KeyLe b := by
    obtain ⟨entity, time⟩ := of_decide_eq_true first
    obtain ⟨entity', time'⟩ := of_decide_eq_true second
    exact EntityRow.Tied.keyLe ⟨entity.symm.trans entity', time.symm.trans time'⟩
  rw [keyed, Sorting.find?_insertionSort all]
  exact List.find?_cons_of_pos (decide_eq_true same)

theorem keyed_eq_of_perm (agree : df.TiesAgree) (same : other.rows.Perm df.rows) : other.keyed = df.keyed := by
  refine Sorting.insertionSort_eq_of_perm ?_ (same.map _)
  intro a inside b alsoInside ab ba
  obtain ⟨row, member, rfl⟩ := List.mem_map.mp inside
  obtain ⟨row', member', rfl⟩ := List.mem_map.mp alsoInside
  have tied := EntityRow.tied_of_keyLe ab ba
  have targets := agree row member row' member' tied
  exact EntityRow.mk.injEq .. ▸ ⟨tied.1, tied.2, targets⟩

/-- Where the digest tells the orders of the keyed rows apart, the
fingerprint is blind to the order of the rows exactly when rows of one entity
at one time agree on their target. -/
theorem orderBlind_iff (rowHashes : List EntityRow → String) (df : TrainingFrame)
    (distinguishes : ∀ a b : List EntityRow, a.Perm (df.rows.map (·.toEntity)) → b.Perm (df.rows.map (·.toEntity)) →
      rowHashes a = rowHashes b → a = b) :
    df.OrderBlind rowHashes ↔ df.TiesAgree := by
  constructor
  · intro blind a inside b alsoInside tied
    have hashed {row : TrainingRow} (member : row ∈ df.rows) :
        (df.bringUp row member).keyed.Perm (df.rows.map (·.toEntity)) :=
      (List.perm_insertionSort _ _).trans ((bringUp_perm row member).map _)
    have digests : rowHashes (df.bringUp a inside).keyed = rowHashes (df.bringUp b alsoInside).keyed :=
      (blind _ "" "" (bringUp_perm a inside)).trans (blind _ "" "" (bringUp_perm b alsoInside)).symm
    have same := distinguishes _ _ (hashed inside) (hashed alsoInside) digests
    have first := find_keyed_bringUp inside ⟨rfl, rfl⟩
    rw [same, find_keyed_bringUp alsoInside tied] at first
    exact congrArg EntityRow.target (Option.some.inj first).symm
  · intro agree shuffled featureView version same
    rw [fingerprint_eq, fingerprint_eq, keyed_eq_of_perm agree same]

/-- Some rows as a frame, with one value in all their feature columns. -/
def filled (keys : List EntityRow) (value : Double) : TrainingFrame where
  columns := featureColumns
  rows := keys.map fun key => ⟨key.entityId, key.eventTimestamp, key.target, featureColumns.map fun name => (name, value)⟩
  aligned row member := by
    obtain ⟨key, _, rfl⟩ := List.mem_map.mp member
    simp [Function.comp_def]

/-- A pair has two orders. -/
theorem perm_pair {a : List EntityRow} {x y : EntityRow} (perm : a.Perm [x, y]) : a = [x, y] ∨ a = [y, x] := by
  cases a with
  | nil => cases perm.length_eq
  | cons first rest =>
    rcases List.mem_pair.mp (perm.mem_iff.mp List.mem_cons_self) with rfl | rfl
    · exact Or.inl (congrArg _ (List.perm_singleton.mp (perm.cons_inv)))
    · exact Or.inr (congrArg _ (List.perm_singleton.mp (perm.trans (List.Perm.swap ..)).cons_inv))

/-- Two entities at two times, hashed by their names. -/
theorem distinct_rows_orderless :
    (filled [⟨"higgs-000000001", 5, 1⟩, ⟨"higgs-000000000", 9, 0⟩] 0).OrderBlind fun keys =>
      String.join (keys.map (·.entityId)) := by
  refine (orderBlind_iff _ (filled [⟨"higgs-000000001", 5, 1⟩, ⟨"higgs-000000000", 9, 0⟩] 0) ?_).mpr ?_
  · intro a b first second same
    rcases perm_pair first with rfl | rfl <;> rcases perm_pair second with rfl | rfl
    · rfl
    · exact absurd same (by decide +kernel)
    · exact absurd same (by decide +kernel)
    · rfl
  · unfold TiesAgree
    decide +kernel

/-- A digest that tells targets apart. -/
def joinedTargets (keys : List EntityRow) : String := String.join (keys.map fun row => toString row.target ++ ";")

/-- One entity at one time with both targets: the rows stay in the order they come in. -/
theorem tied_rows_ordered :
    ¬(filled [⟨"higgs-000000000", 0, 0⟩, ⟨"higgs-000000000", 0, 1⟩] 0).OrderBlind joinedTargets := by
  intro blind
  have same := blind (filled [⟨"higgs-000000000", 0, 1⟩, ⟨"higgs-000000000", 0, 0⟩] 0) "" "" (List.Perm.swap ..)
  exact absurd same (by decide +kernel)

/-- What training sees of a row: its key, its target and its 28 values. -/
def seen (row : TrainingRow) : EntityRow × List Double := (row.toEntity, featureColumns.map row.value)

/-- The rows of two frames are the same to training, in any order. -/
def SameData (df other : TrainingFrame) : Prop := (df.rows.map seen).Perm (other.rows.map seen)

/-- Equal fingerprints come from the same data. -/
def Identifies (rowHashes : List EntityRow → String) (df other : TrainingFrame) : Prop :=
  ∀ featureView version : String, (datasetVersion rowHashes df featureView version).fingerprint =
    (datasetVersion rowHashes other featureView version).fingerprint → df.SameData other

/-- A fingerprint that identifies the keyed rows. -/
theorem keyed_perm_of_fingerprint (identified : rowHashes df.keyed = rowHashes other.keyed → df.keyed = other.keyed)
    (same : (datasetVersion rowHashes df featureView version).fingerprint =
      (datasetVersion rowHashes other featureView version).fingerprint) :
    (df.rows.map (·.toEntity)).Perm (other.rows.map (·.toEntity)) := by
  have first : df.keyed.Perm (df.rows.map (·.toEntity)) := List.perm_insertionSort ..
  have second : other.keyed.Perm (other.rows.map (·.toEntity)) := List.perm_insertionSort ..
  exact first.symm.trans (identified same ▸ second)

theorem filled_toEntity (keys : List EntityRow) (value : Double) : (filled keys value).rows.map (·.toEntity) = keys := by
  simp [filled, TrainingRow.toEntity, Function.comp_def]

theorem value_filled {keys : List EntityRow} {value : Double} {row : TrainingRow}
    (member : row ∈ (filled keys value).rows) : row.value "lepton_pt" = value := by
  obtain ⟨key, _, rfl⟩ := List.mem_map.mp member
  simp [TrainingRow.value, featureColumns, higgsFeatureNames]

/-- The same keyed rows with other feature values have the same fingerprint. -/
theorem fingerprint_filled (rowHashes : List EntityRow → String) (df : TrainingFrame) (value : Double)
    (featureView version : String) :
    (datasetVersion rowHashes df featureView version).fingerprint =
      (datasetVersion rowHashes (filled (df.rows.map (·.toEntity)) value) featureView version).fingerprint := by
  rw [fingerprint_eq, fingerprint_eq, keyed, keyed, filled_toEntity]

/-- A row with another first value than all the rows of a frame is not in it. -/
theorem not_sameData_filled {row : TrainingRow} {keys : List EntityRow} {value : Double} (member : row ∈ df.rows)
    (other : row.value "lepton_pt" ≠ value) : ¬df.SameData (filled keys value) := by
  intro same
  obtain ⟨row', member', equal⟩ := List.mem_map.mp (same.mem_iff.mp (List.mem_map_of_mem member))
  have values : row'.value "lepton_pt" = row.value "lepton_pt" := by
    have columns : (row'.value "lepton_pt" :: _) = row.value "lepton_pt" :: _ := congrArg Prod.snd equal
    exact (List.cons.inj columns).1
  exact other (values.symm.trans (value_filled member'))

/-- Where no rows but none have the digest of none, a frame is identified
among all frames exactly when it has no rows: beside any other frame there is
one with its keys, its targets and other feature values. -/
theorem identifies_iff_empty (rowHashes : List EntityRow → String) (df : TrainingFrame)
    (onlyEmpty : ∀ keys, rowHashes [] = rowHashes keys → keys = []) :
    (∀ other, df.Identifies rowHashes other) ↔ df.rows = [] := by
  constructor
  · intro identifies
    cases rows : df.rows with
    | nil => rfl
    | cons row rest =>
      have member : row ∈ df.rows := by rw [rows]; exact List.mem_cons_self
      let value : Double := if row.value "lepton_pt" = 0 then .one else 0
      have differs : row.value "lepton_pt" ≠ value := by
        dsimp only [value]
        split
        · rename_i zero
          rw [zero]
          decide
        · rename_i nonzero
          exact nonzero
      have same := identifies (filled (df.rows.map (·.toEntity)) value) "" "" (fingerprint_filled ..)
      exact absurd same (not_sameData_filled member differs)
  · intro empty other featureView version same
    have identified : rowHashes df.keyed = rowHashes other.keyed → df.keyed = other.keyed := by
      have none : df.keyed = [] := by simp [keyed, empty]
      rw [none]
      exact fun digests => (onlyEmpty _ digests).symm
    have keys := keyed_perm_of_fingerprint identified same
    rw [empty, List.map_nil, List.nil_perm, List.map_eq_nil_iff] at keys
    rw [SameData, empty, keys]

/-- A frame without rows, where a row is hashed by its entity. -/
theorem no_rows_identified :
    (∀ other, (filled [] 0).Identifies (fun keys => String.join (keys.map (·.entityId ++ ";"))) other) ↔
      (filled [] 0).rows = [] := by
  refine identifies_iff_empty _ _ ?_
  intro keys same
  cases keys with
  | nil => rfl
  | cons key rest =>
    have texts := congrArg String.toList same
    simp [String.toList_join] at texts

/-- One row with two values of its features. -/
theorem feature_change_unseen :
    ¬(filled [⟨"higgs-000000000", 0, 1⟩] 0).Identifies joinedTargets (filled [⟨"higgs-000000000", 0, 1⟩] .one) := by
  intro identifies
  have same := identifies "" "" (fingerprint_filled joinedTargets (filled [⟨"higgs-000000000", 0, 1⟩] 0) .one "" "")
  exact not_sameData_filled List.mem_cons_self (by decide) same

end TrainingFrame

end Amel
