import DocPath.Proofs.Edit.Decision
import DocPath.Proofs.Edit.Endings
import DocPath.Proofs.Edit.Frame
import DocPath.Proofs.Edit.ReadBack

/-!
# Writing twice

Whether `add` and `setField` are applied, and why not, depends on the container and on the last key, and
the value has no part in it (`Edit.addValue_unapplied`, `Edit.setValue_unapplied`). If one of them is
applied to a flat path, the same container is found again, with the child in it that was written. So a
second write goes over the first one and leaves what it would have left alone, also where the first
one made the field or put nulls behind the end of a list (`Edit.last_write_wins`).
-/

namespace DocPath

namespace Edit

variable {document value : Value} {path : CompiledPath} {scope : Scope}

/-! ## Writes that are not applied -/

theorem addValue_unapplied (h : (addValue document path value scope).outcome.isApplied = false)
    (other : Value) :
    addValue document path other scope = addValue document path value scope := by
  unfold addValue at h ⊢
  simp only at h ⊢
  split at h
  · rfl
  · unfold addIn at h ⊢
    split at h
    · rw [writeField_isApplied] at h
      cases h
    · rfl

theorem setIn_unapplied {slot : Option Slot} {key : Value}
    (h : (setIn document slot key value).outcome.isApplied = false) (other : Value) :
    setIn document slot key other = setIn document slot key value := by
  unfold setIn at h ⊢
  split at h
  · split at h
    · rw [writeField_isApplied] at h
      cases h
    · rfl
  · split at h
    · rw [writeItem_isApplied] at h
      cases h
    · rfl
  · rfl

theorem setValue_unapplied (h : (setValue document path value scope).outcome.isApplied = false)
    (other : Value) :
    setValue document path other scope = setValue document path value scope := by
  unfold setValue at h ⊢
  simp only at h ⊢
  split at h
  · rfl
  · split at h
    · rfl
    · rfl
    · exact setIn_unapplied h other

/-! ## Writes over a write -/

/-- What a second write leaves of a first one to the same place: that of the second alone. -/
structure WrittenOver (first second only : Edited) : Prop where
  document : second.document = only.document
  outcome : ∃ key, (first.outcome = .created key ∨ first.outcome = .overwritten key) ∧
    second.outcome = .overwritten key

theorem writeField_writeField (fill : Value → Value) (fields : Fields Value) (name : String)
    (v w : Value) :
    WrittenOver (writeField fill fields name v) (writeField fill (fields.put name v) name w)
      (writeField fill fields name w) where
  document := by simp only [writeField, Fields.put_put]
  outcome := by
    refine ⟨.string name, ?_, ?_⟩
    · cases hhas : fields.has name <;> simp [writeField, hhas]
    · simp only [writeField, Fields.has_put_self, if_true]

/-- The items that a write leaves; they are enough for the position, which can be written over. -/
theorem writeItem_writeItem (fill : Value → Value) (items : List Value) (key : Value) (i : Nat)
    (v w : Value) :
    ∃ new, (writeItem fill items key i v).document = fill (.array new) ∧ i < new.length ∧
      WrittenOver (writeItem fill items key i v) (writeItem fill new key i w)
        (writeItem fill items key i w) := by
  by_cases hlt : i < items.length
  · refine ⟨items.set i v, ?_, by rwa [List.length_set], ?_, key, ?_, ?_⟩
    · simp only [writeItem, if_pos hlt]
    · simp only [writeItem, List.length_set, if_pos hlt, List.set_set]
    · simp only [writeItem, if_pos hlt, or_true]
    · simp only [writeItem, List.length_set, if_pos hlt]
  · let padded := items ++ List.replicate (i - items.length) Value.null
    have hpadded : padded.length = i := by
      simp only [padded, List.length_append, List.length_replicate]
      omega
    have hnew : i < (padded ++ [v]).length := by
      rw [List.length_append, hpadded]
      exact Nat.lt_succ_self i
    have hset : (padded ++ [v]).set i w = padded ++ [w] := by
      rw [← hpadded]
      exact set_append_cons padded v [] w
    refine ⟨padded ++ [v], ?_, hnew, ?_, key, ?_, ?_⟩
    · simp only [writeItem, if_neg hlt, padded]
    · simp only [writeItem, if_neg hlt, if_pos hnew, hset, padded]
    · simp only [writeItem, if_neg hlt, true_or]
    · simp only [writeItem, if_pos hnew]

/-! ## Two writes by one path -/

variable {write : Value → Edit} {key : Value} {fill : Value → Value}

theorem container?_of_slot? {s : Slot} (hok : (path.resolve scope document).ok = true)
    (hslot : document.slot? (path.resolve scope document).parentKeys = some s) :
    (path.resolve scope document).container? = some s.held := by
  refine Resolution.container?_eq_some.mpr ⟨hok, Option.some.inj ?_⟩
  rw [← Value.find?_of_slot? hslot]
  exact (path.path.find?_parentKeys scope document).symm

/-- In the slot of an object, both edits write a field. -/
theorem write_field (hwrite : write = .add ∨ write = .setField) {fields : Fields Value}
    {name : String} (hname : key.fieldName? = some name)
    (hcontainer : (path.resolve scope document).container? = some (.object fields))
    (hkey : (path.resolve scope document).lastKey = some key)
    (hslot : document.slot? (path.resolve scope document).parentKeys =
      some ⟨.object fields, fill⟩) (value : Value) :
    (write value).apply document path scope = writeField fill fields name value := by
  have hadd : addValue document path value scope = writeField fill fields name value := by
    obtain ⟨fill', hslot', hadd⟩ := addValue_of_object hcontainer
    cases hslot.symm.trans hslot'
    rw [hadd, hkey, Option.bind_some, hname]
  rcases hwrite with rfl | rfl
  · exact hadd
  · exact (setValue_of_object hcontainer).trans hadd

/-- In the slot of a list, `setField` writes an item. -/
theorem write_item {items : List Value} {i : Nat} (hi : key.index? = some i)
    (hle : i ≤ items.length + maxPadding)
    (hcontainer : (path.resolve scope document).container? = some (.array items))
    (hkey : (path.resolve scope document).lastKey = some key)
    (hslot : document.slot? (path.resolve scope document).parentKeys = some ⟨.array items, fill⟩)
    (value : Value) :
    setValue document path value scope = writeItem fill items key i value := by
  obtain ⟨fill', hslot', hset, -⟩ := setValue_of_array value hcontainer
  cases hslot.symm.trans hslot'
  exact hset key i hkey hi hle

theorem field_writtenOver (hwrite : write = .add ∨ write = .setField) (hflat : path.path.IsFlat)
    (hok : (path.resolve scope document).ok = true)
    (hkey : (path.resolve scope document).lastKey = some key) {fields : Fields Value}
    {name : String} (hname : key.fieldName? = some name)
    (hslot : document.slot? (path.resolve scope document).parentKeys =
      some ⟨.object fields, fill⟩) (v w : Value) :
    WrittenOver ((write v).apply document path scope)
      ((write w).apply ((write v).apply document path scope).document path scope)
      ((write w).apply document path scope) := by
  have hcontainer := container?_of_slot? hok hslot
  obtain ⟨hcontainer', hkey', hslot'⟩ :=
    hflat.resolve_filled hok hkey hslot (.object (fields.put name v))
  rw [write_field hwrite hname hcontainer hkey hslot v,
    write_field hwrite hname hcontainer hkey hslot w]
  show WrittenOver _ ((write w).apply (fill (.object (fields.put name v))) path scope) _
  rw [write_field hwrite hname hcontainer' hkey' hslot' w]
  exact writeField_writeField fill fields name v w

theorem item_writtenOver (hflat : path.path.IsFlat)
    (hok : (path.resolve scope document).ok = true)
    (hkey : (path.resolve scope document).lastKey = some key) {items : List Value} {i : Nat}
    (hi : key.index? = some i) (hle : i ≤ items.length + maxPadding)
    (hslot : document.slot? (path.resolve scope document).parentKeys = some ⟨.array items, fill⟩)
    (v w : Value) :
    WrittenOver (setValue document path v scope)
      (setValue (setValue document path v scope).document path w scope)
      (setValue document path w scope) := by
  have hcontainer := container?_of_slot? hok hslot
  rw [write_item hi hle hcontainer hkey hslot v, write_item hi hle hcontainer hkey hslot w]
  obtain ⟨new, hnew, hlt, hover⟩ := writeItem_writeItem fill items key i v w
  obtain ⟨hcontainer', hkey', hslot'⟩ := hflat.resolve_filled hok hkey hslot (.array new)
  rw [hnew, write_item hi (by omega) hcontainer' hkey' hslot' w]
  exact hover

/-- **The last write wins.** After two writes of one kind by one flat path, the document is as if the
second had been alone. If the first was applied, the second goes over it, under the same key; if it was
not, the second is ignored or rejected just as the first was. -/
theorem last_write_wins (write : Value → Edit) (hwrite : write = .add ∨ write = .setField)
    (v w document : Value) (path : CompiledPath) (hflat : path.path.IsFlat) (scope : Scope) :
    let first := (write v).apply document path scope
    let second := (write w).apply first.document path scope
    let only := (write w).apply document path scope
    second.document = only.document ∧
    (first.outcome.isApplied = true →
      ∃ key, (first.outcome = .created key ∨ first.outcome = .overwritten key) ∧
        second.outcome = .overwritten key) ∧
    (first.outcome.isApplied = false →
      (first.outcome = .ignored ∨ ∃ error, first.outcome = .rejected error) ∧
        second.outcome = first.outcome) := by
  intro first second only
  cases happlied : first.outcome.isApplied with
  | false =>
      have hdocument : first.document = document := apply_keeps (write v) document path scope happlied
      have hsecond : second = only := by
        show (write w).apply first.document path scope = _
        rw [hdocument]
      have honly : only = first := by
        rcases hwrite with rfl | rfl
        · exact addValue_unapplied happlied w
        · exact setValue_unapplied happlied w
      refine ⟨by rw [hsecond], nofun, fun _ => ⟨?_, by rw [hsecond, honly]⟩⟩
      exact Outcome.isApplied_eq_false_iff.mp happlied
  | true =>
      have hover : WrittenOver first second only := by
        rcases hwrite with rfl | rfl
        · have hok := (addValue_writesChild happlied).ok
          obtain ⟨fields, fill, name, hslot, hlast, -⟩ := addValue_applied happlied
          obtain ⟨key, hkey, hname⟩ := Option.bind_eq_some_iff.mp hlast
          exact field_writtenOver (Or.inl rfl) hflat hok hkey hname hslot v w
        · have hok := (setValue_writesChild happlied).ok
          obtain ⟨key, hkey, ⟨fields, fill, name, hslot, hname, -⟩ |
            ⟨items, fill, i, hslot, hi, hle, -⟩⟩ := setValue_applied happlied
          · exact field_writtenOver (Or.inr rfl) hflat hok hkey hname hslot v w
          · exact item_writtenOver hflat hok hkey hi hle hslot v w
      exact ⟨hover.document, fun _ => hover.outcome, nofun⟩

/-- A whole list takes the place of an item that was written behind the end before, by a
floating-point number. -/
theorem last_write_wins_padded :
    let document := Value.object [("l", .array [.integer 1])]
    let path : CompiledPath := ⟨"l[$i]", [.name "l", .variable "i"]⟩
    let scope := Scope.outermost [("i", .float (.ofNat 3))]
    let v := Value.string "x"
    let w := Value.array [.null, .boolean true]
    let first := (Edit.setField v).apply document path scope
    let second := (Edit.setField w).apply first.document path scope
    first.outcome = .created (.float (.ofNat 3)) ∧ path.path.IsFlat ∧
    second.document = ((Edit.setField w).apply document path scope).document ∧
    ∃ key, (first.outcome = .created key ∨ first.outcome = .overwritten key) ∧
      second.outcome = .overwritten key := by
  intro document path scope v w first second
  have hcreated : first.outcome = .created (.float (.ofNat 3)) := by rfl
  have hflat : path.path.IsFlat := by
    intro sub hsub
    simp [path] at hsub
  obtain ⟨hdocument, happlied, -⟩ :=
    last_write_wins Edit.setField (Or.inr rfl) v w document path hflat scope
  exact ⟨hcreated, hflat, hdocument, happlied (congrArg Outcome.isApplied hcreated)⟩

end Edit

end DocPath
