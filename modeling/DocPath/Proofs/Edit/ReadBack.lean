import DocPath.Proofs.Edit.Applied
import Mathlib.Data.List.Basic

/-!
# Reading back what was written

`add` and `setField` report whether they made a child of the container or wrote over one. They
find that out in the slot they opened, from the name or the position that the key denotes
there; a resolution finds it out by a step from the container. Both ask the same, and a step
by the same key finds the value afterwards (`Edited.Wrote`).

A whole path finds it too if the write cannot change the keys of the path. Only a nested path
takes its key from the document, so a flat path is resolved to the same keys again, and all
of them but the last still lead to the container (`Path.IsFlat.resolve_again`).
-/

namespace DocPath

/-! ## Keys of paths -/

/-- If something is found at the end of a route, something is found all the way. -/
theorem Value.find?_take_isSome {doc : Value} {keys : List Value}
    (h : (doc.find? keys).isSome = true) (m : Nat) : (doc.find? (keys.take m)).isSome = true := by
  rw [← List.take_append_drop m keys, find?_append] at h
  cases hfound : doc.find? (keys.take m) with
  | none => simp [hfound] at h
  | some v => rfl

namespace Path

/-- No step takes its key from the document. -/
def IsFlat (path : Path) : Prop :=
  ∀ sub, Segment.nested sub ∉ path

theorem IsFlat.effectiveKeys_eq {path : Path} (h : path.IsFlat) (scope : Scope)
    (document other : Value) :
    path.effectiveKeys scope document = path.effectiveKeys scope other := by
  apply List.map_congr_left
  intro segment hsegment
  cases segment with
  | nested sub => exact (h sub hsegment).elim
  | _ => simp only [Segment.keyIn]

variable {path : Path} {scope : Scope} {document : Value}

theorem length_effectiveKeys (path : Path) (scope : Scope) (document : Value) :
    (path.effectiveKeys scope document).length = path.length :=
  List.length_map _

theorem resolvedKeys_of_ok (h : (path.resolve scope document).ok = true) :
    (path.resolve scope document).resolvedKeys = path.effectiveKeys scope document := by
  obtain ⟨n, _, hkeys, _, hend, _⟩ := path.resolve_progress scope document
  rw [hkeys, hend.mp h, ← path.length_effectiveKeys scope document]
  exact List.take_length

/-- The last key stands behind those that lead to the parent. -/
theorem resolvedKeys_eq_append {key : Value}
    (h : (path.resolve scope document).lastKey = some key) :
    (path.resolve scope document).resolvedKeys =
      (path.resolve scope document).parentKeys ++ [key] := by
  have hlast : (path.resolve scope document).resolvedKeys.getLast? = some key :=
    (path.resolve_tracks scope document).lastKey.symm.trans h
  exact (List.dropLast_append_getLast? key hlast).symm

/-- The node is the child of the container that the last key addresses. -/
theorem node_eq_child? {key container : Value}
    (hkey : (path.resolve scope document).lastKey = some key)
    (hcontainer : document.find? (path.resolve scope document).parentKeys = some container) :
    (path.resolve scope document).node = container.child? key := by
  rw [← find?_resolvedKeys, resolvedKeys_eq_append hkey, Value.find?_append, hcontainer]
  exact Option.bind_fun_some (container.child? key)

/-- A flat path that was walked to its end in one document is walked to its end in another, by
the same keys, if those of its parent lead somewhere there. -/
theorem IsFlat.resolve_again (hflat : path.IsFlat) {key edited container : Value}
    (hok : (path.resolve scope document).ok = true)
    (hkey : (path.resolve scope document).lastKey = some key)
    (hcontainer : edited.find? (path.resolve scope document).parentKeys = some container) :
    (path.resolve scope edited).ok = true ∧
      (path.resolve scope edited).resolvedKeys = (path.resolve scope document).resolvedKeys ∧
      (path.resolve scope edited).node = container.child? key := by
  have hkeys : path.effectiveKeys scope edited =
      (path.resolve scope document).parentKeys ++ [key] := by
    rw [hflat.effectiveKeys_eq scope edited document, ← resolvedKeys_of_ok hok]
    exact resolvedKeys_eq_append hkey
  have hlength : path.length = (path.resolve scope document).parentKeys.length + 1 := by
    rw [← path.length_effectiveKeys scope edited, hkeys]
    exact List.length_append
  have hagain : (path.resolve scope edited).ok = true := by
    rw [← Bool.not_eq_false]
    intro hfails
    obtain ⟨m, hm, hnowhere⟩ := (path.resolve_ok_eq_false_iff scope edited).mp hfails
    -- a step that is not the last one is on the way to the container
    rw [hkeys, List.take_append_of_le_length (by omega)] at hnowhere
    have hfound := Value.find?_take_isSome (Option.isSome_of_eq_some hcontainer) m
    rw [hnowhere] at hfound
    exact Bool.noConfusion hfound
  have hresolved := resolvedKeys_of_ok hagain
  refine ⟨hagain, ?_, ?_⟩
  · rw [hresolved, hkeys]
    exact (resolvedKeys_eq_append hkey).symm
  · rw [← find?_resolvedKeys, hresolved, hkeys, Value.find?_append, hcontainer]
    exact Option.bind_fun_some (container.child? key)

/-- What is put in the place of the container is the container of the same path, in the same slot. -/
theorem IsFlat.resolve_filled (hflat : path.IsFlat) {key : Value} {s : Slot}
    (hok : (path.resolve scope document).ok = true)
    (hkey : (path.resolve scope document).lastKey = some key)
    (hslot : document.slot? (path.resolve scope document).parentKeys = some s) (new : Value) :
    (path.resolve scope (s.fill new)).container? = some new ∧
      (path.resolve scope (s.fill new)).lastKey = some key ∧
      (s.fill new).slot? (path.resolve scope (s.fill new)).parentKeys = some ⟨new, s.fill⟩ := by
  obtain ⟨hagain, hkeys, -⟩ := hflat.resolve_again hok hkey (Value.find?_fill hslot new)
  have hparent : (path.resolve scope (s.fill new)).parentKeys =
      (path.resolve scope document).parentKeys := congrArg List.dropLast hkeys
  refine ⟨Resolution.container?_eq_some.mpr ⟨hagain, ?_⟩, ?_, ?_⟩
  · apply Option.some.inj
    rw [← find?_parentKeys, hparent, Value.find?_fill hslot]
  · have hlast := (path.resolve_tracks scope document).lastKey
    have hagain := (path.resolve_tracks scope (s.fill new)).lastKey
    calc (path.resolve scope (s.fill new)).lastKey
        = (path.resolve scope (s.fill new)).resolvedKeys.getLast? := hagain
      _ = (path.resolve scope document).resolvedKeys.getLast? := by rw [hkeys]
      _ = some key := hlast.symm.trans hkey
  · rw [hparent, Value.slot?_fill hslot]

end Path

/-! ## Writing one child -/

theorem Value.child?_object {fields : Fields Value} {key : Value} {name : String}
    (h : key.fieldName? = some name) : (Value.object fields).child? key = fields.get? name := by
  simp [child?, h]

theorem Value.child?_array {items : List Value} {key : Value} {i : Nat}
    (h : key.index? = some i) : (Value.array items).child? key = items[i]? := by
  simp [child?, h]

/-- A child of a container is written, and the report says whether it was there before. -/
structure Edited.Wrote (edited : Edited) (container new key value : Value) : Prop where
  found : new.child? key = some value
  outcome : ∃ k, edited.outcome =
    if (container.child? key).isSome then .overwritten k else .created k

namespace Edit

variable {document value : Value} {path : CompiledPath} {scope : Scope}

theorem writeField_wrote (fill : Value → Value) (fields : Fields Value) {key : Value}
    {name : String} (hname : key.fieldName? = some name) (value : Value) :
    ∃ new, (writeField fill fields name value).document = fill new ∧
      (writeField fill fields name value).Wrote (.object fields) new key value := by
  refine ⟨_, rfl, ?_, .string name, ?_⟩
  · rw [Value.child?_object hname, Fields.get?_put, if_pos rfl]
  · rw [Value.child?_object hname]
    rfl

theorem writeItem_wrote (fill : Value → Value) (items : List Value) {key : Value} {i : Nat}
    (hi : key.index? = some i) (value : Value) :
    ∃ new, (writeItem fill items key i value).document = fill new ∧
      (writeItem fill items key i value).Wrote (.array items) new key value := by
  unfold writeItem
  split
  · rename_i hlt
    refine ⟨_, rfl, ?_, key, ?_⟩
    · rw [Value.child?_array hi, List.getElem?_set_self hlt]
    · rw [Value.child?_array hi, List.getElem?_eq_getElem hlt]
      rfl
  · rename_i hge
    have hlength : (items ++ List.replicate (i - items.length) Value.null).length = i := by
      rw [List.length_append, List.length_replicate]
      omega
    refine ⟨_, rfl, ?_, key, ?_⟩
    · rw [Value.child?_array hi, List.getElem?_append_right (Nat.le_of_eq hlength), hlength,
        Nat.sub_self]
      rfl
    · rw [Value.child?_array hi, List.getElem?_eq_none (Nat.le_of_not_lt hge)]
      rfl

/-- What `add` and `setField` have in common when they are applied: the walk was finished, and
in the slot of the parent the child is written that the last key addresses. -/
structure WritesChild (value : Value) (r : Resolution) (document : Value) (edited : Edited) :
    Prop where
  ok : r.ok = true
  written : ∃ s key new, document.slot? r.parentKeys = some s ∧ r.lastKey = some key ∧
    edited.document = s.fill new ∧ edited.Wrote s.held new key value

/-- An edit that needs a container is applied only behind a walk that was finished. -/
theorem ok_of_isApplied {r : Resolution} {edited : Edited} (h : edited.outcome.isApplied = true)
    (hnone : r.container? = none → edited.outcome.isApplied = false) : r.ok = true := by
  rw [← Bool.not_eq_false]
  intro hfails
  rw [hnone (by simp [Resolution.container?, hfails])] at h
  exact Bool.false_ne_true h

theorem addValue_writesChild
    (h : (addValue document path value scope).outcome.isApplied = true) :
    WritesChild value (path.resolve scope document) document
      (addValue document path value scope) := by
  constructor
  case ok =>
    apply ok_of_isApplied h
    intro hnone
    simp [addValue, addTarget, hnone, rejected, Outcome.isApplied]
  case written =>
    obtain ⟨fields, fill, name, hslot, hname, heq⟩ := addValue_applied h
    obtain ⟨key, hkey, hfield⟩ := Option.bind_eq_some_iff.mp hname
    obtain ⟨new, hnew, hwrote⟩ := writeField_wrote fill fields hfield value
    rw [heq]
    exact ⟨_, key, new, hslot, hkey, hnew, hwrote⟩

theorem setValue_writesChild
    (h : (setValue document path value scope).outcome.isApplied = true) :
    WritesChild value (path.resolve scope document) document
      (setValue document path value scope) := by
  constructor
  case ok =>
    apply ok_of_isApplied h
    intro hnone
    simp [setValue, hnone, ignored, Outcome.isApplied]
  case written =>
    obtain ⟨key, hkey, ⟨fields, fill, name, hslot, hname, heq⟩ |
      ⟨items, fill, i, hslot, hi, _, heq⟩⟩ := setValue_applied h
    · obtain ⟨new, hnew, hwrote⟩ := writeField_wrote fill fields hname value
      rw [heq]
      exact ⟨_, key, new, hslot, hkey, hnew, hwrote⟩
    · obtain ⟨new, hnew, hwrote⟩ := writeItem_wrote fill items hi value
      rw [heq]
      exact ⟨_, key, new, hslot, hkey, hnew, hwrote⟩

/-- **What was written is reported and read back.** When a field or an item is written, it is
reported as written over exactly if its path led to a node before, and as created exactly if
the path was walked to its end and there was none. A flat path leads to the value afterwards,
by the same keys. -/
theorem write_reports_and_reads_back (e : Edit) (value document : Value) (path : CompiledPath)
    (scope : Scope) (hwrite : e = .add value ∨ e = .setField value)
    (happlied : (e.apply document path scope).outcome.isApplied = true) :
    let r := path.resolve scope document
    let edited := e.apply document path scope
    let again := path.resolve scope edited.document
    ((∃ key, edited.outcome = .overwritten key) ↔ r.node.isSome = true) ∧
    ((∃ key, edited.outcome = .created key) ↔ r.ok = true ∧ r.node = none) ∧
    (path.path.IsFlat →
      again.ok = true ∧ again.resolvedKeys = r.resolvedKeys ∧ again.node = some value) := by
  intro r edited again
  have hwrites : WritesChild value r document edited := by
    rcases hwrite with rfl | rfl
    · exact addValue_writesChild happlied
    · exact setValue_writesChild happlied
  obtain ⟨s, key, new, hslot, hkey, hedited, hwrote⟩ := hwrites.written
  obtain ⟨k, houtcome⟩ := hwrote.outcome
  have hnode : r.node = s.held.child? key :=
    Path.node_eq_child? hkey (Value.find?_of_slot? hslot)
  rw [← hnode] at houtcome
  refine ⟨?_, ?_, ?_⟩
  · rw [houtcome]
    cases r.node <;> simp
  · rw [houtcome, hwrites.ok]
    cases r.node <;> simp
  · intro hflat
    have hcontainer : edited.document.find? r.parentKeys = some new := by
      rw [hedited]
      exact Value.find?_fill hslot new
    obtain ⟨hok, hkeys, hfound⟩ := hflat.resolve_again hwrites.ok hkey hcontainer
    exact ⟨hok, hkeys, hfound.trans hwrote.found⟩

/-- An item is written two places behind the end of a list, by a floating-point number. -/
theorem set_padded_item_reads_back :
    let document := Value.object [("l", .array [.integer 1])]
    let path : CompiledPath := ⟨"l[$i]", [.name "l", .variable "i"]⟩
    let scope := Scope.outermost [("i", .float (.ofNat 3))]
    let edited := (Edit.setField (.string "x")).apply document path scope
    edited.outcome.isApplied = true ∧ path.path.IsFlat ∧
    ((∃ key, edited.outcome = .overwritten key) ↔
      (path.resolve scope document).node.isSome = true) ∧
    ((∃ key, edited.outcome = .created key) ↔
      (path.resolve scope document).ok = true ∧ (path.resolve scope document).node = none) ∧
    (path.resolve scope edited.document).ok = true ∧
    (path.resolve scope edited.document).resolvedKeys =
      (path.resolve scope document).resolvedKeys ∧
    (path.resolve scope edited.document).node = some (.string "x") := by
  intro document path scope edited
  have happlied : edited.outcome.isApplied = true := by decide +kernel
  have hflat : path.path.IsFlat := by
    intro sub hsub
    simp [path] at hsub
  obtain ⟨hoverwritten, hcreated, hagain⟩ :=
    write_reports_and_reads_back (.setField (.string "x")) (.string "x") document path scope
      (Or.inr rfl) happlied
  exact ⟨happlied, hflat, hoverwritten, hcreated, hagain hflat⟩

end Edit

end DocPath
