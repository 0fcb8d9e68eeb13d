import Mathlib.Data.List.Forall2
import Amel.Python.Json

namespace Python

open Json (Value)

/-- A reference to a `dict` object. -/
abbrev Ref := Nat

def Json.Value.isDict : Value → Bool
  | .dict _ => true
  | _ => false

/-- What a dict has under a key: a dict by its reference, or what is no dict. -/
inductive Slot
  | value (value : Value) (atomic : value.isDict = false)
  | dict (ref : Ref)

/-- The dict objects, each with its items in their order. -/
abbrev Heap := List (List (Text × Slot))

/-- `items[key] = slot` on the items of an object. -/
def putSlot (key : Text) (slot : Slot) : List (Text × Slot) → List (Text × Slot)
  | [] => [(key, slot)]
  | (k, s) :: rest => if k = key then (k, slot) :: rest else (k, s) :: putSlot key slot rest

/-- A new object, as a dict display or `dict(...)` makes one. -/
def newDict (items : List (Text × Slot)) : StateM Heap Ref := fun heap => (heap.length, heap ++ [items])

def itemsOf (ref : Ref) : StateM Heap (List (Text × Slot)) := fun heap => (heap.getD ref [], heap)

/-- `ref[key] = slot`. -/
def setKey (ref : Ref) (key : Text) (slot : Slot) : StateM Heap Unit :=
  fun heap => ((), heap.modify ref (putSlot key slot))

/-- `ref.pop(key, None)`. -/
def popKey (ref : Ref) (key : Text) : StateM Heap Unit :=
  fun heap => ((), heap.modify ref (List.filter fun (k, _) => k ≠ key))

/-- The value that a slot stands for, through so many levels of dicts. -/
def Heap.load (heap : Heap) : Nat → Slot → Option Value
  | _, .value v _ => some v
  | 0, .dict _ => none
  | depth + 1, .dict ref => do
    let items ← heap[ref]?
    return .dict (← items.mapM fun (key, slot) => return (key, ← heap.load depth slot))

namespace Heap

variable {heap : Heap} {depth : Nat} {items : List (Text × Slot)} {values : List (Text × Value)}

/-- Items that stand for those of a value, key by key. -/
def Stands (heap : Heap) (depth : Nat) (items : List (Text × Slot)) (values : List (Text × Value)) : Prop :=
  List.Forall₂ (fun item entry => item.1 = entry.1 ∧ heap.load depth item.2 = some entry.2) items values

theorem mapM_eq_some_iff {α β : Type} {f : α → Option β} {xs : List α} {ys : List β} :
    xs.mapM f = some ys ↔ List.Forall₂ (fun x y => f x = some y) xs ys := by
  induction xs generalizing ys with
  | nil =>
    rw [List.mapM_nil, List.forall₂_nil_left_iff]
    exact ⟨fun same => (Option.some.inj same).symm, fun empty => by rw [empty]; rfl⟩
  | cons x xs ih =>
    rw [List.mapM_cons]
    simp only [Option.bind_eq_bind, Option.bind_eq_some_iff, Option.pure_def, Option.some.injEq, ih,
      List.forall₂_cons_left_iff]
    constructor
    · rintro ⟨y, first, rest, others, rfl⟩
      exact ⟨y, rest, first, others, rfl⟩
    · rintro ⟨y, rest, first, others, rfl⟩
      exact ⟨y, first, rest, others, rfl⟩

theorem load_dict_iff {ref : Ref} : heap.load (depth + 1) (.dict ref) = some (.dict values) ↔
    ∃ items, heap[ref]? = some items ∧ Stands heap depth items values := by
  have each (item : Text × Slot) (entry : Text × Value) :
      (do let value ← heap.load depth item.2; return (item.1, value) : Option (Text × Value)) = some entry ↔
        item.1 = entry.1 ∧ heap.load depth item.2 = some entry.2 := by
    obtain ⟨key, value⟩ := entry
    cases heap.load depth item.2 with
    | none => simp
    | some loaded => simp
  have all (items : List (Text × Slot)) :
      (items.mapM fun item => (do let value ← heap.load depth item.2; return (item.1, value) : Option (Text × Value))) =
        some values ↔ Stands heap depth items values := by
    rw [mapM_eq_some_iff, Stands]
    exact ⟨fun loaded => loaded.imp fun _ _ => (each _ _).mp, fun stands => stands.imp fun _ _ => (each _ _).mpr⟩
  rw [load, Option.bind_eq_bind, Option.bind_eq_some_iff]
  refine exists_congr fun items => and_congr_right fun _ => ?_
  rw [← all, Option.bind_eq_bind, Option.bind_eq_some_iff]
  simp only [Option.pure_def, Option.some.injEq, Value.dict.injEq, exists_eq_right]

/-- A reference stands for a dict. -/
theorem exists_dict_of_load {ref : Ref} {value : Value} (loaded : heap.load depth (.dict ref) = some value) :
    ∃ values, value = .dict values := by
  cases depth with
  | zero => cases loaded
  | succ depth =>
    rw [load, Option.bind_eq_bind, Option.bind_eq_some_iff] at loaded
    obtain ⟨items, -, made⟩ := loaded
    rw [Option.bind_eq_bind, Option.bind_eq_some_iff] at made
    obtain ⟨values, -, same⟩ := made
    cases same
    exact ⟨values, rfl⟩

/-- New objects change no value. -/
theorem load_append {slot : Slot} {value : Value} (more : Heap) (loaded : heap.load depth slot = some value) :
    Heap.load (heap ++ more) depth slot = some value := by
  induction depth generalizing slot value with
  | zero =>
    cases slot with
    | value v atomic => exact loaded
    | dict ref => cases loaded
  | succ depth ih =>
    cases slot with
    | value v atomic => exact loaded
    | dict ref =>
      obtain ⟨values, rfl⟩ := exists_dict_of_load loaded
      obtain ⟨items, found, stands⟩ := load_dict_iff.mp loaded
      have inside : ref < heap.length := (List.getElem?_eq_some_iff.mp found).1
      refine load_dict_iff.mpr ⟨items, ?_, stands.imp fun _ _ both => ⟨both.1, ih both.2⟩⟩
      rw [List.getElem?_append_left inside, found]

namespace Stands

variable {key : Text}

theorem append (stands : Stands heap depth items values) (more : Heap) : Stands (heap ++ more) depth items values :=
  stands.imp fun _ _ both => ⟨both.1, load_append more both.2⟩

theorem keys (stands : Stands heap depth items values) : items.map Prod.fst = values.map Prod.fst := by
  induction stands with
  | nil => rfl
  | cons both _ ih => rw [List.map_cons, List.map_cons, both.1, ih]

theorem putSlot (stands : Stands heap depth items values) {slot : Slot} {value : Value}
    (loaded : heap.load depth slot = some value) :
    Stands heap depth (putSlot key slot items) (Json.setItem key value values) := by
  induction stands with
  | nil => exact List.Forall₂.cons ⟨rfl, loaded⟩ List.Forall₂.nil
  | @cons item entry items values both rest ih =>
    obtain ⟨k, s⟩ := item
    obtain ⟨name, v⟩ := entry
    obtain ⟨same, loadedFirst⟩ := both
    dsimp only at same
    subst same
    rw [Python.putSlot, Json.setItem]
    split
    · exact List.Forall₂.cons ⟨rfl, loaded⟩ rest
    · exact List.Forall₂.cons ⟨rfl, loadedFirst⟩ ih

theorem filter (stands : Stands heap depth items values) {keep : Text × Slot → Bool} {kept : Text × Value → Bool}
    (same : ∀ k s v, keep (k, s) = kept (k, v)) : Stands heap depth (items.filter keep) (values.filter kept) := by
  induction stands with
  | nil => exact List.Forall₂.nil
  | @cons item entry items values both rest ih =>
    obtain ⟨k, s⟩ := item
    obtain ⟨name, v⟩ := entry
    obtain ⟨sameKey, loadedFirst⟩ := both
    dsimp only at sameKey
    subst sameKey
    have first := same k s v
    cases hit : kept (k, v) with
    | true =>
      rw [hit] at first
      rw [List.filter_cons_of_pos first, List.filter_cons_of_pos hit]
      exact List.Forall₂.cons ⟨rfl, loadedFirst⟩ ih
    | false =>
      rw [hit] at first
      rw [List.filter_cons_of_neg (by simp [first]), List.filter_cons_of_neg (by simp [hit])]
      exact ih

/-- What is found under a key stands for what the value has there. -/
theorem lookup (stands : Stands heap depth items values) (key : Text) :
    Option.Rel (fun slot value => heap.load depth slot = some value) (items.lookup key) (values.lookup key) := by
  induction stands with
  | nil => exact Option.Rel.none
  | @cons item entry items values both rest ih =>
    obtain ⟨k, s⟩ := item
    obtain ⟨name, v⟩ := entry
    obtain ⟨same, loadedFirst⟩ := both
    dsimp only at same
    subst same
    rw [List.lookup_cons, List.lookup_cons]
    cases key == k with
    | true => exact Option.Rel.some loadedFirst
    | false => exact ih

end Stands

section Fresh

variable {base : Heap}

theorem modify_fresh (object : List (Text × Slot)) (more : Heap)
    (change : List (Text × Slot) → List (Text × Slot)) :
    (base ++ object :: more).modify base.length change = base ++ change object :: more := by
  induction base with
  | nil => rfl
  | cons first rest ih => rw [List.cons_append, List.length_cons, List.modify_succ_cons, ih, List.cons_append]

theorem getD_fresh (object : List (Text × Slot)) (more : Heap) : (base ++ object :: more).getD base.length [] = object := by
  simp

theorem getD_old {ref : Ref} {items : List (Text × Slot)} (found : base[ref]? = some items) (more : Heap) :
    (base ++ more).getD ref [] = items := by
  have inside : ref < base.length := (List.getElem?_eq_some_iff.mp found).1
  rw [List.getD_eq_getElem?_getD, List.getElem?_append_left inside, found, Option.getD_some]

theorem load_fresh {object : List (Text × Slot)} {more : Heap} {depth : Nat} {values : List (Text × Value)}
    (stands : Stands (base ++ object :: more) depth object values) :
    Heap.load (base ++ object :: more) (depth + 1) (.dict base.length) = some (.dict values) :=
  load_dict_iff.mpr ⟨object, by simp, stands⟩

end Fresh

end Heap

end Python
