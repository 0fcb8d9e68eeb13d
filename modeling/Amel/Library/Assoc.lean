import Mathlib.Data.List.Nodup
import Mathlib.Data.List.Perm.Basic

universe u v

namespace List

variable {Key : Type u} {Entry : Type v} [BEq Key] [LawfulBEq Key] {entries others : List (Key × Entry)} {key : Key}
  {entry : Entry}

/-- An entry that is found is one of the list. -/
theorem mem_of_lookup_eq_some (found : entries.lookup key = some entry) : (key, entry) ∈ entries := by
  induction entries with
  | nil => simp at found
  | cons first rest ih =>
    obtain ⟨name, value⟩ := first
    rw [lookup_cons] at found
    split at found
    · rename_i same
      cases found
      rw [eq_of_beq same]
      exact mem_cons_self
    · exact mem_cons_of_mem _ (ih found)

/-- Where keys are distinct every entry is found under its key. -/
theorem lookup_eq_some_of_mem (distinct : (entries.map Prod.fst).Nodup) (member : (key, entry) ∈ entries) :
    entries.lookup key = some entry := by
  induction entries with
  | nil => simp at member
  | cons first rest ih =>
    obtain ⟨name, value⟩ := first
    obtain ⟨fresh, distinct⟩ := nodup_cons.mp distinct
    rw [lookup_cons]
    rcases mem_cons.mp member with same | later
    · cases same
      rw [beq_self_eq_true]
    · have differs : key ≠ name := by
        rintro rfl
        exact fresh (mem_map.mpr ⟨_, later, rfl⟩)
      rw [beq_false_of_ne differs]
      exact ih distinct later

theorem lookup_eq_some_iff_mem (distinct : (entries.map Prod.fst).Nodup) :
    entries.lookup key = some entry ↔ (key, entry) ∈ entries :=
  ⟨mem_of_lookup_eq_some, lookup_eq_some_of_mem distinct⟩

/-- With distinct keys the order of the entries does not matter. -/
theorem Perm.lookup_eq (same : entries.Perm others) (distinct : (entries.map Prod.fst).Nodup) (key : Key) :
    entries.lookup key = others.lookup key := by
  have distinct' : (others.map Prod.fst).Nodup := (same.map Prod.fst).nodup_iff.mp distinct
  refine Option.ext fun entry => ?_
  rw [lookup_eq_some_iff_mem distinct, lookup_eq_some_iff_mem distinct', same.mem_iff]

/-- Each entry's image, in the order of the entries. -/
theorem mapM_lookup_keys {Image : Type v} (distinct : (entries.map Prod.fst).Nodup) (image : Entry → Image) :
    (entries.map Prod.fst).mapM (fun key => (entries.lookup key).map image) =
      some (entries.map fun entry => image entry.2) := by
  rw [mapM_map]
  suffices each : ∀ part, part ⊆ entries →
      part.mapM (fun entry => (entries.lookup entry.1).map image) = some (part.map fun entry => image entry.2) from
    each entries (Subset.refl _)
  intro part inside
  induction part with
  | nil => rfl
  | cons first rest ih =>
    have found : entries.lookup first.1 = some first.2 := lookup_eq_some_of_mem distinct (inside mem_cons_self)
    rw [mapM_cons, found, ih fun entry member => inside (mem_cons_of_mem _ member)]
    rfl

end List
