import DocPath.Edit.Basic
import DocPath.Proofs.Resolution

/-!
# What edits do, by their container

`add`, `setField` and `remove` are told apart by the container of the last step. For each kind of
container there is one lemma here that says all that the edit does there. In the slot that the edit
opens it finds the container that it looked at before, so nothing is left of the second decision but
a write or a removal in that slot.
-/

namespace DocPath

/-- A value without children that is not null. -/
def Value.IsScalar : Value → Prop
  | .null | .array _ | .object _ => False
  | _ => True

namespace Edit

variable {document value container : Value} {path : CompiledPath} {scope : Scope}

/-! ## Add -/

theorem addValue_of_fault {fault : StructuralFault}
    (h : addTarget (path.resolve scope document) = .error fault) :
    addValue document path value scope = rejected document path fault := by
  simp only [addValue, h]

theorem addValue_of_absent (h : (path.resolve scope document).container? = none) :
    addValue document path value scope =
      rejected document path (.addToUndefined (path.resolve scope document).lastKey) :=
  addValue_of_fault (by rw [addTarget, h])

theorem addValue_of_null (h : (path.resolve scope document).container? = some .null) :
    addValue document path value scope =
      rejected document path (.addToUndefined (path.resolve scope document).lastKey) :=
  addValue_of_fault (by rw [addTarget, h])

theorem addValue_of_array {items : List Value}
    (h : (path.resolve scope document).container? = some (.array items)) :
    addValue document path value scope =
      rejected document path (.addToList (path.resolve scope document).lastKey) :=
  addValue_of_fault (by rw [addTarget, h])

theorem addValue_of_scalar (h : (path.resolve scope document).container? = some container)
    (hscalar : container.IsScalar) :
    addValue document path value scope =
      rejected document path (.notAContainer (path.resolve scope document).lastKey container) := by
  apply addValue_of_fault
  cases container with
  | null | array _ | object _ => exact hscalar.elim
  | _ => rw [addTarget, h]

theorem addValue_of_object {fields : Fields Value}
    (h : (path.resolve scope document).container? = some (.object fields)) :
    ∃ fill, document.slot? (path.resolve scope document).parentKeys =
        some ⟨.object fields, fill⟩ ∧
      addValue document path value scope =
        match (path.resolve scope document).lastKey.bind Value.fieldName? with
        | some name => writeField fill fields name value
        | none => rejected document path
            (.invalidKey (path.resolve scope document).lastKey) := by
  obtain ⟨fill, hslot⟩ := CompiledPath.exists_slot?_container h
  refine ⟨fill, hslot, ?_⟩
  cases hname : (path.resolve scope document).lastKey.bind Value.fieldName? with
  | none => exact addValue_of_fault (by simp only [addTarget, h, hname])
  | some name => simp only [addValue, addTarget, h, hname, hslot, addIn]

/-! ## Set -/

theorem setValue_of_absent (h : (path.resolve scope document).container? = none) :
    setValue document path value scope = ignored document [.targetAbsent path.source] := by
  simp only [setValue, h, Option.filter_none]

theorem setValue_of_falsy (h : (path.resolve scope document).container? = some container)
    (hfalsy : container.isTruthy = false) :
    setValue document path value scope = ignored document [.targetAbsent path.source] := by
  simp only [setValue, h, Option.filter_some, hfalsy, Bool.false_eq_true, if_false]

theorem setValue_of_fault {fault : StructuralFault}
    (h : (path.resolve scope document).container? = some container)
    (htruthy : container.isTruthy = true)
    (hfault : setFault? (path.resolve scope document).lastKey container = some fault) :
    setValue document path value scope = rejected document path fault := by
  simp only [setValue, h, Option.filter_some, htruthy, if_true, hfault]

theorem setValue_of_scalar (h : (path.resolve scope document).container? = some container)
    (hscalar : container.IsScalar) (htruthy : container.isTruthy = true) :
    setValue document path value scope = addValue document path value scope := by
  rw [addValue_of_scalar h hscalar]
  apply setValue_of_fault h htruthy
  cases container with
  | null | array _ | object _ => exact hscalar.elim
  | _ => rfl

/-- In an object, `setField` and `add` are the same. -/
theorem setValue_of_object {fields : Fields Value}
    (h : (path.resolve scope document).container? = some (.object fields)) :
    setValue document path value scope = addValue document path value scope := by
  obtain ⟨fill, hslot, hadd⟩ := addValue_of_object h
  rw [hadd]
  cases hname : (path.resolve scope document).lastKey.bind Value.fieldName? with
  | none =>
      apply setValue_of_fault h rfl
      simp only [setFault?, hname, Option.isNone_none, if_true]
  | some name =>
      obtain ⟨key, hkey, hfield⟩ := Option.bind_eq_some_iff.mp hname
      simp [setValue, h, Option.filter_some, Value.isTruthy, setFault?, hkey, hfield, hslot, setIn]

/-- In a list, `setField` writes at a position that is at most the padding behind the end, and
rejects everything else. -/
theorem setValue_of_array (value : Value) {items : List Value}
    (h : (path.resolve scope document).container? = some (.array items)) :
    ∃ fill, document.slot? (path.resolve scope document).parentKeys = some ⟨.array items, fill⟩ ∧
      (∀ key i, (path.resolve scope document).lastKey = some key → key.index? = some i →
        i ≤ items.length + maxPadding →
        setValue document path value scope = writeItem fill items key i value) ∧
      ((∀ i, (path.resolve scope document).lastKey.bind Value.index? = some i →
          items.length + maxPadding < i) →
        setValue document path value scope = rejected document path
          (.invalidIndex (path.resolve scope document).lastKey items.length)) := by
  obtain ⟨fill, hslot⟩ := CompiledPath.exists_slot?_container h
  refine ⟨fill, hslot, ?_, ?_⟩
  · intro key i hkey hi hle
    have hgap : ¬ maxPadding < i - items.length := by omega
    simp [setValue, h, Option.filter_some, Value.isTruthy, setFault?, hkey, hi, hgap, hslot, setIn]
  · intro hinvalid
    apply setValue_of_fault h rfl
    cases hi : (path.resolve scope document).lastKey.bind Value.index? with
    | none => simp only [setFault?, hi]
    | some i =>
        have hgap : maxPadding < i - items.length := by
          have hlt := hinvalid i hi
          omega
        simp only [setFault?, hi, if_pos hgap]

/-! ## Remove -/

theorem removeValue_of_array {items : List Value} {key : Value}
    (h : (path.resolve scope document).container? = some (.array items))
    (hkey : (path.resolve scope document).lastKey = some key) :
    ∃ fill, document.slot? (path.resolve scope document).parentKeys = some ⟨.array items, fill⟩ ∧
      removeValue document path scope =
        match removalIndex? key items.length with
        | some i =>
          if i < items.length then ⟨.removed key, fill (.array (items.eraseIdx i)), []⟩
          else ignored document [.nothingToRemove path.source]
        | none => rejected document path (.invalidIndex (some key) items.length) := by
  obtain ⟨fill, hslot⟩ := CompiledPath.exists_slot?_container h
  refine ⟨fill, hslot, ?_⟩
  cases hi : removalIndex? key items.length with
  | none => simp [removeValue, h, hkey, hi]
  | some i =>
      by_cases hlt : i < items.length
      · simp [removeValue, h, hkey, hi, hslot, removeIn, without?, hlt]
      · simp [removeValue, h, hkey, hi, hslot, removeIn, without?, hlt]

theorem removeValue_of_field {fields : Fields Value} {key : Value} {name : String}
    (h : (path.resolve scope document).container? = some (.object fields))
    (hkey : (path.resolve scope document).lastKey = some key) (hname : key.fieldName? = some name)
    (hhas : fields.has name = true) :
    ∃ fill, document.slot? (path.resolve scope document).parentKeys =
        some ⟨.object fields, fill⟩ ∧
      removeValue document path scope =
        ⟨.removed key, fill (.object (fields.erase name)), []⟩ := by
  obtain ⟨fill, hslot⟩ := CompiledPath.exists_slot?_container h
  refine ⟨fill, hslot, ?_⟩
  simp only [removeValue, h, hkey, hslot, removeIn, without?, hname, hhas, if_true]

end Edit

end DocPath
