import Amel.Python.Dumps

namespace Python.Json

/-- The limits of an interpreter that can still recurse to a dict in a dict.
No lower digit limit than 640 can be set. -/
structure Limits.Roomy (limits : Limits) : Prop where
  recursion : 2 ≤ limits.recursion
  maxStrDigits : limits.maxStrDigits = 0 ∨ 640 ≤ limits.maxStrDigits

/-- A demand that such an interpreter meets. -/
def Demand.Modest : Demand → Prop
  | .nest depth => depth ≤ 2
  | .digits count => count ≤ 640

/-- A value whose text reads back at a nesting of `depth`. -/
structure Sendable (depth : Nat) (value : Value) : Prop where
  printable : Printable value
  modest : ∀ demand ∈ demandsOf depth value, demand.Modest

structure SendableItems (depth : Nat) (items : List (Text × Value)) : Prop where
  scalar : ∀ item ∈ items, Scalar item.1
  distinct : (items.map Prod.fst).Nodup
  each : ∀ item ∈ items, Sendable depth item.2

theorem sendable_str (depth : Nat) {s : Text} (scalar : Scalar s) : Sendable depth (.str s) :=
  ⟨.str scalar, by simp [demandsOf]⟩

theorem sendable_literal (depth : Nat) {literal : Text} (n : Numeral) (shown : literal = n.text)
    (isFloat : n.places ≠ [] ∨ n.exponent ≠ []) : Sendable depth (.float (.literal literal)) :=
  ⟨shown ▸ .literal n isFloat, by simp [demandsOf]⟩

theorem sendable_int (depth : Nat) {n : Int} (short : (Nat.toDigits 10 n.natAbs).length ≤ 640) :
    Sendable depth (.int n) := by
  refine ⟨.int n, fun demand member => ?_⟩
  rw [demandsOf, List.mem_singleton] at member
  rw [member]
  exact short

theorem demandsOfMembers_eq (depth : Nat) (items : List (Text × Value)) :
    demandsOfMembers depth items = items.flatMap fun item => demandsOf depth item.2 := by
  induction items with
  | nil => rw [demandsOfMembers, List.flatMap_nil]
  | cons item items ih =>
    obtain ⟨key, value⟩ := item
    rw [demandsOfMembers, List.flatMap_cons, ih]

theorem Sendable.items {depth : Nat} {items : List (Text × Value)} (sendable : Sendable depth (.dict items)) :
    SendableItems (depth + 1) items := by
  obtain ⟨printable, modest⟩ := sendable
  cases printable with
  | dict scalar distinct each =>
    refine ⟨scalar, distinct, fun item member => ⟨each item member, fun demand inItem => modest demand ?_⟩⟩
    rw [demandsOf, demandsOfMembers_eq]
    exact List.mem_cons_of_mem _ (List.mem_flatMap.mpr ⟨item, member, inItem⟩)

namespace SendableItems

variable {depth : Nat} {items : List (Text × Value)} {key : Text} {value : Value}

theorem dict (sendable : SendableItems (depth + 1) items) (shallow : depth + 1 ≤ 2) : Sendable depth (.dict items) := by
  refine ⟨.dict sendable.scalar sendable.distinct fun item member => (sendable.each item member).printable,
    fun demand member => ?_⟩
  rw [demandsOf, demandsOfMembers_eq, List.mem_cons, List.mem_flatMap] at member
  rcases member with rfl | ⟨item, inItems, inItem⟩
  · exact shallow
  · exact (sendable.each item inItems).modest demand inItem

theorem filter (sendable : SendableItems depth items) (keep : Text × Value → Bool) :
    SendableItems depth (items.filter keep) := by
  refine ⟨fun item member => sendable.scalar item (List.mem_filter.mp member).1,
    List.Nodup.sublist (List.Sublist.map _ List.filter_sublist) sendable.distinct,
    fun item member => sendable.each item (List.mem_filter.mp member).1⟩

end SendableItems

theorem map_fst_setItem (key : Text) (value : Value) (items : List (Text × Value)) :
    (setItem key value items).map Prod.fst =
      if key ∈ items.map Prod.fst then items.map Prod.fst else items.map Prod.fst ++ [key] := by
  induction items with
  | nil => rfl
  | cons item items ih =>
    obtain ⟨k, v⟩ := item
    rw [setItem]
    by_cases same : k = key
    · rw [if_pos same, if_pos (by rw [List.map_cons, same]; exact List.mem_cons_self)]
      rfl
    · rw [if_neg same, List.map_cons, ih, List.map_cons]
      by_cases later : key ∈ items.map Prod.fst
      · rw [if_pos later, if_pos (List.mem_cons_of_mem _ later)]
      · rw [if_neg later, if_neg (by rw [List.mem_cons]; exact fun found => found.elim (Ne.symm same) later)]
        rfl

theorem mem_setItem {key : Text} {value : Value} {items : List (Text × Value)} {item : Text × Value}
    (member : item ∈ setItem key value items) : item = (key, value) ∨ item ∈ items := by
  induction items with
  | nil => exact Or.inl (List.mem_singleton.mp member)
  | cons first items ih =>
    obtain ⟨k, v⟩ := first
    rw [setItem] at member
    split at member
    · rename_i same
      rcases List.mem_cons.mp member with here | later
      · exact Or.inl (same ▸ here)
      · exact Or.inr (List.mem_cons_of_mem _ later)
    · rcases List.mem_cons.mp member with here | later
      · exact Or.inr (here ▸ List.mem_cons_self)
      · exact (ih later).imp_right (List.mem_cons_of_mem _)

theorem SendableItems.setItem {depth : Nat} {items : List (Text × Value)} {key : Text} {value : Value}
    (sendable : SendableItems depth items) (scalar : Scalar key) (new : Sendable depth value) :
    SendableItems depth (setItem key value items) := by
  refine ⟨fun item member => ?_, ?_, fun item member => ?_⟩
  · rcases mem_setItem member with rfl | old
    · exact scalar
    · exact sendable.scalar item old
  · rw [map_fst_setItem]
    split
    · exact sendable.distinct
    · rename_i fresh
      exact List.nodup_append.mpr ⟨sendable.distinct, List.nodup_singleton _, fun a inItems b isKey same =>
        fresh (List.mem_singleton.mp isKey ▸ same ▸ inItems)⟩
  · rcases mem_setItem member with rfl | old
    · exact new
    · exact sendable.each item old

/-- A sendable value serialises, and its bytes load as the value. -/
theorem Sendable.loads_serialize {value : Value} (sendable : Sendable 0 value) {limits : Limits}
    (roomy : limits.Roomy) : ∃ bytes, serialize value = some bytes ∧ loads limits bytes = .ok value := by
  refine sendable.printable.loads_serialize (refuses_eq_none_iff.mpr ⟨fun depth member => ?_, fun count member => ?_⟩)
  · exact Nat.le_trans (sendable.modest _ member) roomy.recursion
  · exact roomy.maxStrDigits.imp_right (Nat.le_trans (sendable.modest _ member))

end Python.Json
