import DocPath.Proofs.Edit.Applied

/-!
# What an edit leaves alone

An applied edit replaces one container and nothing else. `Edit.route` leads to that
container, `Edit.Change` lists what may happen inside it, and `apply_touches_one_slot` puts
both together: the change is one of those, and keys that leave the route find what they
found before.
-/

namespace DocPath

/-- Two mappings differ in one name at most, which has `before` in the one and `after` in
the other. -/
structure Fields.DifferAt {α : Type} (name : String) (before after : Option α)
    (old new : Fields α) : Prop where
  before : old.get? name = before
  after : new.get? name = after
  others : ∀ other, other ≠ name → new.get? other = old.get? other

theorem Fields.differAt_put {α : Type} (fields : Fields α) (name : String) (a : α) :
    DifferAt name (fields.get? name) (some a) fields (fields.put name a) :=
  ⟨rfl, by simp [get?_put], fun other hne => by simp [get?_put, hne]⟩

theorem Fields.differAt_erase {α : Type} (fields : Fields α) (name : String) :
    DifferAt name (fields.get? name) none fields (fields.erase name) :=
  ⟨rfl, by simp [get?_erase], fun other hne => by simp [get?_erase, hne]⟩

namespace Edit

/-- The keys that lead to the container an edit changes. -/
def route (e : Edit) (r : Resolution) : List Value :=
  match e with
  | .append _ => r.resolvedKeys
  | .add _ | .setField _ | .remove => r.parentKeys

/-- What an edit may do to its container: write one field or delete one, write over one
item, put nulls and a value behind the last item, put the value there alone, or take one
item out of the list. -/
inductive Change : Edit → Option Value → Value → Value → Prop where
  | addField {key name before value old new} (hname : key.bind Value.fieldName? = some name)
      (hdiffer : Fields.DifferAt name before (some value) old new) :
      Change (.add value) key (.object old) (.object new)
  | setField {key name before value old new} (hname : key.bind Value.fieldName? = some name)
      (hdiffer : Fields.DifferAt name before (some value) old new) :
      Change (.setField value) key (.object old) (.object new)
  | setItem {key value} {before after : List Value} {old : Value}
      (hindex : key.bind Value.index? = some before.length) :
      Change (.setField value) key (.array (before ++ old :: after))
        (.array (before ++ value :: after))
  | pad {key value n} {items : List Value}
      (hindex : key.bind Value.index? = some (items.length + n)) (hn : n ≤ maxPadding) :
      Change (.setField value) key (.array items)
        (.array (items ++ List.replicate n .null ++ [value]))
  | append {key value} {items : List Value} :
      Change (.append value) key (.array items) (.array (items ++ [value]))
  | deleteField {key name before old new} (hname : key.bind Value.fieldName? = some name)
      (hdiffer : Fields.DifferAt name (some before) none old new) :
      Change .remove key (.object old) (.object new)
  | takeOut {key} {before after : List Value} {old : Value}
      (hindex : key.bind (removalIndex? · (before ++ old :: after).length) = some before.length) :
      Change .remove key (.array (before ++ old :: after)) (.array (before ++ after))

/-- An edited document is the old one with another value in one slot. -/
def Rewrites (document edited : Value) (route : List Value) (change : Value → Value → Prop) :
    Prop :=
  ∃ s new, document.slot? route = some s ∧ edited = s.fill new ∧ change s.held new

variable {document value : Value} {path : CompiledPath} {scope : Scope}

theorem exists_append_cons {items : List Value} {i : Nat} (hi : i < items.length) :
    ∃ before old after, items = before ++ old :: after ∧ before.length = i := by
  refine ⟨items.take i, items[i], items.drop (i + 1), ?_, ?_⟩
  · rw [List.getElem_cons_drop, List.take_append_drop]
  · exact List.length_take_of_le (Nat.le_of_lt hi)

theorem set_append_cons (before : List Value) (old : Value) (after : List Value) (value : Value) :
    (before ++ old :: after).set before.length value = before ++ value :: after := by
  rw [List.set_append_right _ _ (Nat.le_refl _), Nat.sub_self, List.set_cons_zero]

theorem eraseIdx_append_cons (before : List Value) (old : Value) (after : List Value) :
    (before ++ old :: after).eraseIdx before.length = before ++ after := by
  rw [List.eraseIdx_append_of_length_le (Nat.le_refl _), Nat.sub_self, List.eraseIdx_cons_zero]

theorem addValue_rewrites (h : (addValue document path value scope).outcome.isApplied = true) :
    Rewrites document (addValue document path value scope).document
      (path.resolve scope document).parentKeys
      (Change (.add value) (path.resolve scope document).lastKey) := by
  obtain ⟨fields, fill, name, hslot, hname, heq⟩ := addValue_applied h
  rw [heq]
  exact ⟨_, _, hslot, rfl, .addField hname (Fields.differAt_put fields name value)⟩

theorem appendValue_rewrites
    (h : (appendValue document path value scope).outcome.isApplied = true) :
    Rewrites document (appendValue document path value scope).document
      (path.resolve scope document).resolvedKeys
      (Change (.append value) (path.resolve scope document).lastKey) := by
  obtain ⟨items, fill, hslot, heq⟩ := appendValue_applied h
  rw [heq]
  exact ⟨_, _, hslot, rfl, .append⟩

/-- A write to a list is over an item or behind the last one. -/
theorem writeItem_change (fill : Value → Value) {items : List Value} {key : Value} {i : Nat}
    (hi : key.index? = some i) (hle : i ≤ items.length + maxPadding) :
    ∃ new, (writeItem fill items key i value).document = fill new ∧
      Change (.setField value) (some key) (.array items) new := by
  unfold writeItem
  split
  · rename_i hlt
    obtain ⟨before, old, after, rfl, hlength⟩ := exists_append_cons hlt
    refine ⟨_, rfl, ?_⟩
    rw [← hlength, set_append_cons]
    exact .setItem (by rw [hlength]; exact hi)
  · rename_i hge
    refine ⟨_, rfl, .pad ?_ (by omega)⟩
    rw [Nat.add_sub_cancel' (Nat.le_of_not_lt hge)]
    exact hi

theorem setValue_rewrites (h : (setValue document path value scope).outcome.isApplied = true) :
    Rewrites document (setValue document path value scope).document
      (path.resolve scope document).parentKeys
      (Change (.setField value) (path.resolve scope document).lastKey) := by
  obtain ⟨key, hkey, ⟨fields, fill, name, hslot, hname, heq⟩ |
    ⟨items, fill, i, hslot, hi, hle, heq⟩⟩ := setValue_applied h
  · rw [heq, hkey]
    exact ⟨_, _, hslot, rfl, .setField hname (Fields.differAt_put fields name value)⟩
  · rw [heq, hkey]
    obtain ⟨new, hnew, hchange⟩ := writeItem_change fill hi hle
    exact ⟨_, new, hslot, hnew, hchange⟩

theorem without?_change {slot : Slot} {key new : Value} (h : without? (some slot) key = some new) :
    ∃ changed, new = slot.fill changed ∧ Change .remove (some key) slot.held changed := by
  rcases without?_eq_some h with ⟨items, i, hheld, hi, hlt, rfl⟩ |
    ⟨fields, name, hheld, hname, hhas, rfl⟩
  · obtain ⟨before, old, after, rfl, hlength⟩ := exists_append_cons hlt
    refine ⟨_, rfl, ?_⟩
    rw [hheld, ← hlength, eraseIdx_append_cons]
    exact .takeOut (by rw [hlength]; exact hi)
  · obtain ⟨before, hbefore⟩ := Option.isSome_iff_exists.mp hhas
    refine ⟨_, rfl, ?_⟩
    rw [hheld]
    exact .deleteField hname (hbefore ▸ Fields.differAt_erase fields name)

theorem removeValue_rewrites (h : (removeValue document path scope).outcome.isApplied = true) :
    Rewrites document (removeValue document path scope).document
      (path.resolve scope document).parentKeys
      (Change .remove (path.resolve scope document).lastKey) := by
  obtain ⟨slot, key, new, hslot, hkey, hnew, heq⟩ := removeValue_applied h
  obtain ⟨changed, rfl, hchange⟩ := without?_change hnew
  rw [heq, hkey]
  exact ⟨slot, changed, hslot, rfl, hchange⟩

theorem apply_rewrites {e : Edit} (h : (e.apply document path scope).outcome.isApplied = true) :
    Rewrites document (e.apply document path scope).document
      (e.route (path.resolve scope document))
      (e.Change (path.resolve scope document).lastKey) := by
  cases e with
  | add value => exact addValue_rewrites h
  | append value => exact appendValue_rewrites h
  | setField value => exact setValue_rewrites h
  | remove => exact removeValue_rewrites h

/-- **An edit touches only the slot it addresses.** If it is applied, the document after it
is the one before it with a changed container in its slot, the change is one the edit may
make there, and keys that leave the route to the container find what they found before. -/
theorem apply_touches_one_slot (e : Edit) (document : Value) (path : CompiledPath) (scope : Scope)
    (happlied : (e.apply document path scope).outcome.isApplied = true) :
    let r := path.resolve scope document
    let edited := (e.apply document path scope).document
    (∃ old new, document.find? (e.route r) = some old ∧
      document.replace? (e.route r) new = some edited ∧
      edited.find? (e.route r) = some new ∧ e.Change r.lastKey old new) ∧
    ∀ keys, document.Leaves (e.route r) keys → edited.find? keys = document.find? keys := by
  intro r edited
  obtain ⟨s, new, hslot, hedited, hchange⟩ := apply_rewrites happlied
  refine ⟨⟨s.held, new, Value.find?_of_slot? hslot, ?_, ?_, hchange⟩, ?_⟩
  · show (document.slot? (e.route r)).map (·.fill new) = some edited
    rw [hslot]
    exact congrArg some hedited.symm
  · show (e.apply document path scope).document.find? (e.route r) = some new
    rw [hedited]
    exact Value.find?_fill hslot new
  · intro keys hleaves
    show (e.apply document path scope).document.find? keys = document.find? keys
    rw [hedited]
    exact Value.find?_fill_of_leaves hslot hleaves new

/-- The last item of a list is taken out, addressed from the end; a list beside it stays. -/
theorem remove_last_touches_one_slot :
    let document := Value.object [("a", .array [.integer 1, .integer 2]), ("b", .array [.null])]
    let path : CompiledPath := ⟨"a[-1]", [.name "a", .index (.int (-1))]⟩
    (Edit.remove.apply document path .empty).outcome.isApplied = true ∧
    (∃ old new, document.find? [.string "a"] = some old ∧
      document.replace? [.string "a"] new =
        some (Edit.remove.apply document path .empty).document ∧
      (Edit.remove.apply document path .empty).document.find? [.string "a"] = some new ∧
      Change .remove (some (.integer (-1))) old new) ∧
    ∀ keys, document.Leaves [.string "a"] keys →
      (Edit.remove.apply document path .empty).document.find? keys = document.find? keys := by
  intro document path
  have happlied : (Edit.remove.apply document path .empty).outcome.isApplied = true := rfl
  exact ⟨happlied, apply_touches_one_slot .remove document path .empty happlied⟩

end Edit

end DocPath
