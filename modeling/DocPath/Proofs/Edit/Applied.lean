import DocPath.Edit.Basic
import DocPath.Proofs.Resolution

/-!
# Edits that are applied

An edit decides twice, by the container that the resolution looked at and by what is in
the slot that the recorded keys open. Both see the same value, so the second decision never
falls back, and each edit is one of a few writes into that slot. There is one inversion
lemma for each edit; what an applied edit does is read off from these.
-/

namespace DocPath

namespace Edit

variable {document value : Value} {path : CompiledPath} {scope : Scope}

theorem addTarget_eq_ok {r : Resolution} {name : String} (h : addTarget r = .ok name) :
    ∃ fields, r.container? = some (.object fields) ∧
      r.lastKey.bind Value.fieldName? = some name := by
  unfold addTarget at h
  split at h
  · cases h
  · cases h
  · cases h
  · rename_i fields hcontainer
    split at h
    · rename_i found hfound
      cases h
      exact ⟨fields, hcontainer, hfound⟩
    · cases h
  · cases h

theorem addValue_applied (h : (addValue document path value scope).outcome.isApplied = true) :
    ∃ fields fill name,
      document.slot? (path.resolve scope document).parentKeys = some ⟨.object fields, fill⟩ ∧
      (path.resolve scope document).lastKey.bind Value.fieldName? = some name ∧
      addValue document path value scope = writeField fill fields name value := by
  unfold addValue at h ⊢
  cases htarget : addTarget (path.resolve scope document) with
  | error fault => simp [htarget, rejected, Outcome.isApplied] at h
  | ok name =>
      obtain ⟨fields, hcontainer, hname⟩ := addTarget_eq_ok htarget
      obtain ⟨fill, hslot⟩ := CompiledPath.exists_slot?_container hcontainer
      exact ⟨fields, fill, name, hslot, hname, by simp only [htarget, hslot, addIn]⟩

theorem appendValue_applied
    (h : (appendValue document path value scope).outcome.isApplied = true) :
    ∃ items fill,
      document.slot? (path.resolve scope document).resolvedKeys = some ⟨.array items, fill⟩ ∧
      appendValue document path value scope =
        ⟨.appended items.length, fill (.array (items ++ [value])), []⟩ := by
  unfold appendValue at h ⊢
  simp only at h ⊢
  split at h
  · rename_i items hnode
    have hfound : (path.resolve scope document).node = some (.array items) := by
      split at hnode
      · exact hnode
      · cases hnode
    obtain ⟨fill, hslot⟩ := CompiledPath.exists_slot?_node hfound
    exact ⟨items, fill, hslot, by simp only [hslot, appendIn]⟩
  · cases h

/-- A list position that passes the check is at most the padding behind the end. -/
theorem setFault?_array_eq_none {key : Value} {items : List Value}
    (h : setFault? (some key) (.array items) = none) :
    ∃ i, key.index? = some i ∧ i ≤ items.length + maxPadding := by
  simp only [setFault?, Option.bind_some] at h
  split at h
  · rename_i i hi
    refine ⟨i, hi, ?_⟩
    split at h
    · cases h
    · omega
  · cases h

theorem setValue_applied (h : (setValue document path value scope).outcome.isApplied = true) :
    ∃ key, (path.resolve scope document).lastKey = some key ∧
      ((∃ fields fill name,
        document.slot? (path.resolve scope document).parentKeys = some ⟨.object fields, fill⟩ ∧
        key.fieldName? = some name ∧
        setValue document path value scope = writeField fill fields name value) ∨
      (∃ items fill i,
        document.slot? (path.resolve scope document).parentKeys = some ⟨.array items, fill⟩ ∧
        key.index? = some i ∧ i ≤ items.length + maxPadding ∧
        setValue document path value scope = writeItem fill items key i value)) := by
  unfold setValue at h ⊢
  cases hfilter : (path.resolve scope document).container?.filter Value.isTruthy with
  | none => simp [hfilter, ignored, Outcome.isApplied] at h
  | some container =>
      have hcontainer := (Option.filter_eq_some_iff.mp hfilter).1
      obtain ⟨fill, hslot⟩ := CompiledPath.exists_slot?_container hcontainer
      simp only [hfilter] at h ⊢
      split at h
      · cases h
      · cases h
      · rename_i key hfault hkey
        refine ⟨key, hkey, ?_⟩
        rw [hkey] at hfault
        simp only [hslot] at h ⊢
        cases container with
        | object fields =>
            cases hname : key.fieldName? with
            | none => simp [setFault?, hname] at hfault
            | some name => exact Or.inl ⟨fields, fill, name, rfl, rfl, by simp only [setIn, hname]⟩
        | array items =>
            obtain ⟨i, hi, hle⟩ := setFault?_array_eq_none hfault
            exact Or.inr ⟨items, fill, i, rfl, hi, hle, by simp only [setIn, hi]⟩
        | _ => cases h

theorem without?_eq_some {slot : Slot} {key new : Value} (h : without? (some slot) key = some new) :
    (∃ items i, slot.held = .array items ∧ removalIndex? key items.length = some i ∧
      i < items.length ∧ new = slot.fill (.array (items.eraseIdx i))) ∨
    (∃ fields name, slot.held = .object fields ∧ key.fieldName? = some name ∧
      Fields.has fields name = true ∧ new = slot.fill (.object (Fields.erase fields name))) := by
  obtain ⟨held, fill⟩ := slot
  cases held with
  | array items =>
      simp only [without?] at h
      split at h
      · rename_i i hi
        split at h
        · rename_i hlt
          exact Or.inl ⟨items, i, rfl, hi, hlt, (Option.some.inj h).symm⟩
        · cases h
      · cases h
  | object fields =>
      simp only [without?] at h
      split at h
      · rename_i name hname
        split at h
        · rename_i hhas
          exact Or.inr ⟨fields, name, rfl, hname, hhas, (Option.some.inj h).symm⟩
        · cases h
      · cases h
  | _ => cases h

/-- Whatever the container is, an item or a field is removed by the same second step. -/
theorem removeIn_applied {container key : Value}
    (hcontainer : (path.resolve scope document).container? = some container)
    (h : (removeIn document path (document.slot? (path.resolve scope document).parentKeys)
      key).outcome.isApplied = true) :
    ∃ fill new,
      document.slot? (path.resolve scope document).parentKeys = some ⟨container, fill⟩ ∧
      without? (some ⟨container, fill⟩) key = some new ∧
      removeIn document path (document.slot? (path.resolve scope document).parentKeys) key =
        ⟨.removed key, new, []⟩ := by
  obtain ⟨fill, hslot⟩ := CompiledPath.exists_slot?_container hcontainer
  unfold removeIn at h ⊢
  rw [hslot] at h ⊢
  cases hwithout : without? (some ⟨container, fill⟩) key with
  | none => simp [hwithout, ignored, Outcome.isApplied] at h
  | some new => exact ⟨fill, new, rfl, hwithout, rfl⟩

theorem removeValue_applied (h : (removeValue document path scope).outcome.isApplied = true) :
    ∃ slot key new,
      document.slot? (path.resolve scope document).parentKeys = some slot ∧
      (path.resolve scope document).lastKey = some key ∧
      without? (some slot) key = some new ∧
      removeValue document path scope = ⟨.removed key, new, []⟩ := by
  unfold removeValue at h ⊢
  simp only at h ⊢
  split at h
  · rename_i items key hcontainer hkey
    split at h
    · rename_i hindex
      obtain ⟨fill, new, hslot, hnew, heq⟩ := removeIn_applied hcontainer h
      exact ⟨_, key, new, hslot, hkey, hnew, by simpa only [hindex, if_true] using heq⟩
    · cases h
  · cases h
  · rename_i fields key hcontainer hkey
    obtain ⟨fill, new, hslot, hnew, heq⟩ := removeIn_applied hcontainer h
    exact ⟨_, key, new, hslot, hkey, hnew, heq⟩
  · cases h

end Edit

end DocPath
