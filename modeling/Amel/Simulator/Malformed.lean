import Amel.Python.Heap
import Amel.Simulator.Payload

namespace Amel

open Python (Text text Ref Slot Heap newDict itemsOf setKey popKey putSlot)
open Python.Json (Value setItem)
open Python.Heap (Stands)

/-- What both functions of `malformed.py` do around the branches on the
strategy: they copy the dict, and name the strategy in the copy. -/
def corruptDict (strategy : String) (change : Ref → StateM Heap Unit) (payload : Ref) : StateM Heap Ref := do
  let payload ← newDict (← itemsOf payload)
  change payload
  setKey payload malformedStrategy (.value (.str (text strategy)) rfl)
  return payload

/-- `payload["features"]` replaced by a new dict where it is a dict. -/
def changeFeaturesDict (change : List (Text × Slot) → List (Text × Slot)) (payload : Ref) : StateM Heap Unit := do
  match (← itemsOf payload).lookup (text "features") with
  | some (.dict features) => setKey payload (text "features") (.dict (← newDict (change (← itemsOf features))))
  | _ => pure ()

/-- `corrupt_feature_payload` on dict objects. -/
def corruptFeatureDict (strategy : FeatureStrategy) : Ref → StateM Heap Ref :=
  corruptDict strategy.name fun payload =>
    match strategy with
    | .dropField choice => popKey payload (text (["entity_id", "event_timestamp", "features"].get choice))
    | .wrongType => setKey payload (text "features") (.value (.str (text "not-a-dict")) rfl)
    | .extraField =>
      changeFeaturesDict (putSlot (text "unexpected_field") (.value (.float (.literal (text "1.0"))) rfl)) payload
    | .truncatedFeatures => changeFeaturesDict (fun features =>
        let drop := (features.map Prod.fst).take (max 1 (features.length / 2))
        features.filter fun item => !drop.contains item.1) payload

/-- `corrupt_label_payload`. -/
def corruptLabelDict (strategy : LabelStrategy) : Ref → StateM Heap Ref :=
  corruptDict strategy.name fun payload =>
    match strategy with
    | .dropField choice => popKey payload (text (["entity_id", "target", "label_timestamp"].get choice))
    | .targetOutOfRange choice => setKey payload (text "target") (.value (.int ([2, -1, 99].get choice)) rfl)
    | .wrongType => setKey payload (text "target") (.value (.str (text "signal")) rfl)

/-- The dict that a program returns is a new object, which stands for
`corrupted`; the objects there were before are as they were. -/
def Corrupts (program : StateM Heap Ref) (base : Heap) (corrupted : Payload) : Prop :=
  ∃ more, program base = (base.length, base ++ more) ∧
    Heap.load (base ++ more) 2 (.dict base.length) = some (.dict corrupted)

/-- A branch on the strategy changes the copy, which it is given behind the
objects of `base`, and may make objects behind it. -/
def Changes (change : Ref → StateM Heap Unit) (base : Heap) (items : List (Text × Slot)) (changed : Payload) : Prop :=
  ∃ object more, change base.length (base ++ [items]) = ((), base ++ object :: more) ∧
    ∀ other, Stands (base ++ other :: more) 1 object changed

variable {base : Heap} {ref : Ref} {items : List (Text × Slot)} {payload : Payload}

theorem corruptDict_corrupts (found : base[ref]? = some items) {change : Ref → StateM Heap Unit} {changed : Payload}
    (changes : Changes change base items changed) (strategy : String) :
    Corrupts (corruptDict strategy change ref) base (setItem malformedStrategy (.str (text strategy)) changed) := by
  obtain ⟨object, more, run, stands⟩ := changes
  have copied : base.getD ref [] = items := by rw [List.getD_eq_getElem?_getD, found, Option.getD_some]
  refine ⟨putSlot malformedStrategy (.value (.str (text strategy)) rfl) object :: more, ?_,
    Python.Heap.load_fresh ((stands _).putSlot rfl)⟩
  show (base.length, (change base.length (base ++ [base.getD ref []])).2.modify base.length
    (putSlot malformedStrategy (.value (.str (text strategy)) rfl))) = _
  rw [copied, run, Python.Heap.modify_fresh]

theorem popKey_changes (stands : Stands base 1 items payload) (key : Text) :
    Changes (fun copy => popKey copy key) base items (popItem key payload) := by
  exact ⟨_, [], congrArg (Prod.mk ()) (Python.Heap.modify_fresh items [] _),
    fun other => (stands.append [other]).filter fun _ _ _ => rfl⟩

theorem setKey_changes (stands : Stands base 1 items payload) (key : Text) {value : Value}
    (atomic : value.isDict = false) :
    Changes (fun copy => setKey copy key (.value value atomic)) base items (setItem key value payload) := by
  refine ⟨putSlot key (.value value atomic) items, [], ?_, fun other => (stands.append [other]).putSlot rfl⟩
  exact congrArg (Prod.mk ()) (Python.Heap.modify_fresh items [] _)

theorem unchanged_changes (stands : Stands base 1 items payload) : Changes (fun _ => pure ()) base items payload :=
  ⟨items, [], rfl, fun other => stands.append [other]⟩

/-- Where the copy has a dict of features, it gets a new one. -/
theorem changeFeaturesDict_changes (stands : Stands base 1 items payload)
    {change : List (Text × Slot) → List (Text × Slot)} {image : Payload → Payload}
    (follows : ∀ heap features values, Stands heap 0 features values → Stands heap 0 (change features) (image values)) :
    Changes (changeFeaturesDict change) base items (changeFeatures image payload) := by
  have read : (base ++ [items]).getD base.length [] = items := Python.Heap.getD_fresh items []
  have slot := stands.lookup (text "features")
  unfold Changes changeFeaturesDict changeFeatures
  simp only [bind, StateT.bind, itemsOf, read]
  generalize items.lookup (text "features") = here at slot
  generalize payload.lookup (text "features") = there at slot
  cases slot with
  | none => exact unchanged_changes stands
  | @some held value loaded =>
    cases held with
    | value v atomic =>
      cases loaded
      cases value with
      | dict values => cases atomic
      | _ => exact unchanged_changes stands
    | dict features =>
      obtain ⟨values, rfl⟩ := Python.Heap.exists_dict_of_load loaded
      obtain ⟨object, found, objectStands⟩ := Python.Heap.load_dict_iff.mp loaded
      refine ⟨putSlot (text "features") (.dict (base.length + 1)) items, [change object], ?_, fun other => ?_⟩
      · have old := Python.Heap.getD_old found [items]
        show ((), ((base ++ [items]) ++ [change ((base ++ [items]).getD features [])]).modify base.length
          (putSlot (text "features") (.dict (base ++ [items]).length))) = _
        rw [old, List.append_assoc, List.singleton_append, Python.Heap.modify_fresh, List.length_append]
        rfl
      · refine (stands.append [other, change object]).putSlot (Python.Heap.load_dict_iff.mpr ⟨change object, by simp, ?_⟩)
        exact (follows _ _ _ objectStands).append _

theorem corruptFeatureDict_corrupts (found : base[ref]? = some items) (stands : Stands base 1 items payload)
    (strategy : FeatureStrategy) :
    Corrupts (corruptFeatureDict strategy ref) base (corruptFeaturePayload strategy payload) := by
  refine corruptDict_corrupts found ?_ strategy.name
  cases strategy with
  | dropField choice => exact popKey_changes stands _
  | wrongType => exact setKey_changes stands _ rfl
  | extraField => exact changeFeaturesDict_changes stands fun _ _ _ features => features.putSlot rfl
  | truncatedFeatures =>
    refine changeFeaturesDict_changes stands fun _ features values inner => ?_
    have sameLength := inner.length_eq
    dsimp only
    rw [inner.keys, sameLength]
    refine inner.filter fun name _ _ => ?_
    rw [List.contains_eq_mem, decide_not]

theorem corruptLabelDict_corrupts (found : base[ref]? = some items) (stands : Stands base 1 items payload)
    (strategy : LabelStrategy) :
    Corrupts (corruptLabelDict strategy ref) base (corruptLabelPayload strategy payload) := by
  refine corruptDict_corrupts found ?_ strategy.name
  cases strategy with
  | dropField choice => exact popKey_changes stands _
  | targetOutOfRange choice => exact setKey_changes stands _ rfl
  | wrongType => exact setKey_changes stands _ rfl

end Amel
