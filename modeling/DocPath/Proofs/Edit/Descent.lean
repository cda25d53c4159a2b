import DocPath.Proofs.Edit.ReadBack

/-!
# Edits behind a step

A flat path does not look back at the root. So an edit behind the first step of such a path is an edit
of the child that the step leads to, by the rest of the path, with the edited child put back in its
place (`Edit.apply_cons`). If the step leads nowhere, the edit says no more than that
(`Edit.apply_cons_lost`). What an edit does at the end of its path is told by the value there alone; with
these two, what is true of it there is true behind any number of steps, by induction on the path.
-/

namespace DocPath

/-! ## Paths that go on -/

/-- The key of the first step of a flat path does not depend on the document. -/
theorem Path.IsFlat.keyIn_eq {segment : Segment} {rest : Path} (h : Path.IsFlat (segment :: rest))
    (scope : Scope) (document other : Value) :
    segment.keyIn scope document = segment.keyIn scope other :=
  (List.cons.inj (h.effectiveKeys_eq scope document other)).1

theorem Path.IsFlat.tail {segment : Segment} {rest : Path} (h : Path.IsFlat (segment :: rest)) :
    Path.IsFlat rest :=
  fun sub hsub => h sub (List.mem_cons_of_mem segment hsub)

/-- A walk along a flat path is the same from every root, and keeps the keys it was given in front. -/
theorem Walk.along_flat {path : Path} (hflat : path.IsFlat) (scope : Scope) (root other : Value)
    (front : List Value) (w : Walk) :
    Walk.along scope root path { w with keys := front ++ w.keys } =
      { Walk.along scope other path w with
        keys := front ++ (Walk.along scope other path w).keys } := by
  induction path generalizing w with
  | nil => simp only [along]
  | cons segment rest ih =>
      rw [along, along]
      cases hnode : w.node with
      | none => rfl
      | some node =>
          have hstep := ih hflat.tail (w.step node (segment.keyIn scope other))
          simp only [step, ← List.append_assoc] at hstep ⊢
          rw [hflat.keyIn_eq scope root other]
          exact hstep

namespace Path

variable {segment : Segment} {rest : Path} {scope : Scope} {document child : Value}

theorem resolve_singleton (segment : Segment) (scope : Scope) (document : Value) :
    resolve [segment] scope document =
      ⟨true, document.child? (segment.keyIn scope document), document,
        some (segment.keyIn scope document), [segment], [segment.keyIn scope document]⟩ := by
  simp only [resolve, Walk.along, Walk.start, Walk.step, List.nil_append]

/-- The first step is always taken. -/
theorem resolvedKeys_ne_nil {path : Path} (hne : path ≠ []) (scope : Scope) (document : Value) :
    (path.resolve scope document).resolvedKeys ≠ [] := by
  intro hnil
  have hfound := path.find?_resolvedKeys scope document
  rw [hnil] at hfound
  have hkeys := resolvedKeys_of_ok (path.ok_of_node scope document hfound.symm)
  rw [hnil] at hkeys
  exact hne (List.map_eq_nil_iff.mp hkeys.symm)

/-- Behind a step to a child, a flat path is resolved as it is from the child. -/
theorem IsFlat.resolve_cons (hflat : IsFlat (segment :: rest)) (hrest : rest ≠ [])
    (hchild : document.child? (segment.keyIn scope document) = some child) :
    resolve (segment :: rest) scope document =
      { rest.resolve scope child with
        path := segment :: rest
        resolvedKeys :=
          segment.keyIn scope document :: (rest.resolve scope child).resolvedKeys } := by
  obtain ⟨next, behind, rfl⟩ := List.exists_cons_of_ne_nil hrest
  -- from the second step on, the two walks differ in the first key only
  have hwalk := Walk.along_flat hflat.tail.tail scope document child
    [segment.keyIn scope document]
    ((Walk.start child).step child (next.keyIn scope child))
  have hnext : next.keyIn scope document = next.keyIn scope child :=
    hflat.tail.keyIn_eq scope document child
  simp only [Walk.start, Walk.step, List.nil_append, List.singleton_append] at hwalk
  simp only [resolve, Walk.along, Walk.start, Walk.step, List.nil_append, hchild, hnext,
    List.singleton_append, hwalk]

theorem IsFlat.resolve_cons_node (hflat : IsFlat (segment :: rest))
    (hchild : document.child? (segment.keyIn scope document) = some child) :
    (resolve (segment :: rest) scope document).node = (rest.resolve scope child).node ∧
      (resolve (segment :: rest) scope document).resolvedKeys =
        segment.keyIn scope document :: (rest.resolve scope child).resolvedKeys := by
  by_cases hrest : rest = []
  · subst hrest
    rw [resolve_singleton, hchild]
    exact ⟨rfl, rfl⟩
  · rw [hflat.resolve_cons hrest hchild]
    exact ⟨rfl, rfl⟩

theorem IsFlat.resolve_cons_container (hflat : IsFlat (segment :: rest)) (hrest : rest ≠ [])
    (hchild : document.child? (segment.keyIn scope document) = some child) :
    (resolve (segment :: rest) scope document).container? =
        (rest.resolve scope child).container? ∧
      (resolve (segment :: rest) scope document).lastKey = (rest.resolve scope child).lastKey ∧
      (resolve (segment :: rest) scope document).parentKeys =
        segment.keyIn scope document :: (rest.resolve scope child).parentKeys := by
  rw [hflat.resolve_cons hrest hchild]
  refine ⟨rfl, rfl, ?_⟩
  exact List.dropLast_cons_of_ne_nil (resolvedKeys_ne_nil hrest scope child)

/-- Nothing is resolved behind a step that leads nowhere. -/
theorem resolve_cons_lost (hrest : rest ≠ [])
    (hchild : document.child? (segment.keyIn scope document) = none) :
    resolve (segment :: rest) scope document =
      ⟨false, none, document, some (segment.keyIn scope document), segment :: rest,
        [segment.keyIn scope document]⟩ := by
  obtain ⟨next, behind, rfl⟩ := List.exists_cons_of_ne_nil hrest
  simp only [resolve, Walk.along, Walk.start, Walk.step, List.nil_append, hchild]

end Path

/-! ## Edits of a part -/

/-- The slot of a part of a part as a slot of the whole. -/
def Slot.within (fill : Value → Value) (t : Slot) : Slot :=
  ⟨t.held, fun w => fill (t.fill w)⟩

/-- The edit of a part of a document as an edit of the document. -/
def Edited.within (fill : Value → Value) (edited : Edited) : Edited :=
  { edited with document := fill edited.document }

namespace Edit

/-! What is decided in a slot is decided in the slot of the part as in that of the whole; an edit that
is not applied puts the part back as it was. -/

section InPart

variable {document value : Value} {s : Slot}

theorem rejected_within (hfill : s.fill s.held = document) (source : String) (path rest : Path)
    (fault : StructuralFault) :
    (rejected s.held ⟨source, rest⟩ fault).within s.fill =
      rejected document ⟨source, path⟩ fault := by
  simp only [Edited.within, rejected, hfill]

theorem ignored_within (hfill : s.fill s.held = document) (events : List Event) :
    (ignored s.held events).within s.fill = ignored document events := by
  simp only [Edited.within, ignored, hfill]

theorem writeItem_within (outer fill : Value → Value) (items : List Value) (key : Value) (i : Nat) :
    (writeItem fill items key i value).within outer =
      writeItem (fun w => outer (fill w)) items key i value := by
  unfold writeItem
  split <;> rfl

theorem addIn_within (hfill : s.fill s.held = document) (slot : Option Slot) (name : String) :
    (addIn s.held slot name value).within s.fill =
      addIn document (slot.map (Slot.within s.fill)) name value := by
  cases slot with
  | none => exact ignored_within hfill []
  | some t =>
      obtain ⟨held, fill⟩ := t
      cases held with
      | object fields => rfl
      | _ => exact ignored_within hfill []

theorem appendIn_within (hfill : s.fill s.held = document) (slot : Option Slot) :
    (appendIn s.held slot value).within s.fill =
      appendIn document (slot.map (Slot.within s.fill)) value := by
  cases slot with
  | none => exact ignored_within hfill []
  | some t =>
      obtain ⟨held, fill⟩ := t
      cases held with
      | array items => rfl
      | _ => exact ignored_within hfill []

theorem setIn_within (hfill : s.fill s.held = document) (slot : Option Slot) (key : Value) :
    (setIn s.held slot key value).within s.fill =
      setIn document (slot.map (Slot.within s.fill)) key value := by
  cases slot with
  | none => exact ignored_within hfill []
  | some t =>
      obtain ⟨held, fill⟩ := t
      cases held with
      | object fields =>
          simp only [Option.map_some, Slot.within, setIn]
          cases key.fieldName? with
          | none => exact ignored_within hfill []
          | some name => rfl
      | array items =>
          simp only [Option.map_some, Slot.within, setIn]
          cases key.index? with
          | none => exact ignored_within hfill []
          | some i => exact writeItem_within s.fill fill items key i
      | _ => exact ignored_within hfill []

theorem without?_within (outer : Value → Value) (slot : Option Slot) (key : Value) :
    without? (slot.map (Slot.within outer)) key = (without? slot key).map outer := by
  cases slot with
  | none => rfl
  | some t =>
      obtain ⟨held, fill⟩ := t
      cases held with
      | object fields =>
          simp only [Option.map_some, Slot.within, without?]
          cases key.fieldName? with
          | none => rfl
          | some name => cases hhas : Fields.has fields name <;> simp
      | array items =>
          simp only [Option.map_some, Slot.within, without?]
          cases removalIndex? key items.length with
          | none => rfl
          | some i => by_cases hlt : i < items.length <;> simp [hlt]
      | _ => rfl

theorem removeIn_within (hfill : s.fill s.held = document) (source : String) (path rest : Path)
    (slot : Option Slot) (key : Value) :
    (removeIn s.held ⟨source, rest⟩ slot key).within s.fill =
      removeIn document ⟨source, path⟩ (slot.map (Slot.within s.fill)) key := by
  unfold removeIn
  rw [without?_within]
  cases without? slot key with
  | none => exact ignored_within hfill _
  | some edited => rfl

end InPart

/-! ## Edits behind a step -/

/-- What the edit changes lies behind a step in front of the path. Of a path of one step, only an
append does not change the container of this step. -/
def IsBehind (e : Edit) (rest : Path) : Prop :=
  match e with
  | .append _ => True
  | .add _ | .setField _ | .remove => rest ≠ []

theorem isBehind_of_ne_nil {rest : Path} (hrest : rest ≠ []) (e : Edit) : e.IsBehind rest := by
  cases e with
  | append value => trivial
  | _ => exact hrest

/-- What an edit says if the first step leads nowhere. -/
def lost (e : Edit) (document : Value) (path : CompiledPath) (key : Value) : Edited :=
  match e with
  | .add _ => rejected document path (.addToUndefined (some key))
  | .append _ => rejected document path (.appendToNonList none)
  | .setField _ => ignored document [.targetAbsent path.source]
  | .remove => ignored document [.noContainer path.source none]

theorem lost_document (e : Edit) (document : Value) (path : CompiledPath) (key : Value) :
    (e.lost document path key).document = document := by
  cases e <;> rfl

theorem lost_isApplied (e : Edit) (document : Value) (path : CompiledPath) (key : Value) :
    (e.lost document path key).outcome.isApplied = false := by
  cases e <;> rfl

theorem lost_outcome_congr (e : Edit) (document other : Value) (path : CompiledPath) (key : Value) :
    (e.lost document path key).outcome = (e.lost other path key).outcome := by
  cases e <;> rfl

/-- An append is decided by the node alone, for a walk that was given up did not find one. -/
theorem appendValue_eq (document value : Value) (path : CompiledPath) (scope : Scope) :
    appendValue document path value scope =
      match (path.resolve scope document).node with
      | some (.array _) =>
        appendIn document (document.slot? (path.resolve scope document).resolvedKeys) value
      | node => rejected document path (.appendToNonList node) := by
  have hreached : (if (path.resolve scope document).ok then (path.resolve scope document).node
      else none) = (path.resolve scope document).node := by
    cases hnode : (path.resolve scope document).node with
    | none => exact ite_self none
    | some node => exact if_pos (path.path.ok_of_node scope document hnode)
  show (match if (path.resolve scope document).ok then (path.resolve scope document).node else none
    with | some (.array _) => _ | node => _) = _
  rw [hreached]

variable {segment : Segment} {rest : Path} {scope : Scope} {document : Value} {s : Slot}

/-- **An edit behind a step to a child is an edit of the child.** -/
theorem apply_cons (e : Edit) (source : String) (hflat : Path.IsFlat (segment :: rest))
    (hbehind : e.IsBehind rest)
    (hs : document.childSlot? (segment.keyIn scope document) = some s) :
    e.apply document ⟨source, segment :: rest⟩ scope =
      (e.apply s.held ⟨source, rest⟩ scope).within s.fill := by
  have hfill := Value.fill_held_of_childSlot? hs
  have hchild := Value.child?_of_childSlot? hs
  have hslot (keys : List Value) : document.slot? (segment.keyIn scope document :: keys) =
      (s.held.slot? keys).map (Slot.within s.fill) := by
    rw [Value.slot?_cons, hs]
    rfl
  cases e with
  | add value =>
      obtain ⟨hcontainer, hkey, hparent⟩ := hflat.resolve_cons_container hbehind hchild
      simp only [apply, addValue, addTarget, CompiledPath.resolve, hcontainer, hkey, hparent, hslot]
      split
      · exact (rejected_within hfill source _ rest _).symm
      · exact (addIn_within hfill _ _).symm
  | append value =>
      obtain ⟨hnode, hkeys⟩ := hflat.resolve_cons_node hchild
      simp only [apply, appendValue_eq, CompiledPath.resolve, hnode, hkeys, hslot]
      split
      · exact (appendIn_within hfill _).symm
      · exact (rejected_within hfill source _ rest _).symm
  | setField value =>
      obtain ⟨hcontainer, hkey, hparent⟩ := hflat.resolve_cons_container hbehind hchild
      simp only [apply, setValue, CompiledPath.resolve, hcontainer, hkey, hparent, hslot]
      split
      · exact (ignored_within hfill _).symm
      · split
        · exact (rejected_within hfill source _ rest _).symm
        · exact (ignored_within hfill _).symm
        · exact (setIn_within hfill _ _).symm
  | remove =>
      obtain ⟨hcontainer, hkey, hparent⟩ := hflat.resolve_cons_container hbehind hchild
      simp only [apply, removeValue, CompiledPath.resolve, hcontainer, hkey, hparent, hslot]
      split
      · split
        · exact (removeIn_within hfill source _ rest _ _).symm
        · exact (rejected_within hfill source _ rest _).symm
      · exact (rejected_within hfill source _ rest _).symm
      · exact (removeIn_within hfill source _ rest _ _).symm
      · exact (ignored_within hfill _).symm

/-- Behind a step that leads nowhere, no edit finds anything. -/
theorem apply_cons_lost (e : Edit) (source : String) (hbehind : e.IsBehind rest)
    (hchild : document.child? (segment.keyIn scope document) = none) :
    e.apply document ⟨source, segment :: rest⟩ scope =
      e.lost document ⟨source, segment :: rest⟩ (segment.keyIn scope document) := by
  have hnode : (Path.resolve (segment :: rest) scope document).node = none := by
    by_cases hrest : rest = []
    · subst hrest
      rw [Path.resolve_singleton, hchild]
    · rw [Path.resolve_cons_lost hrest hchild]
  cases e with
  | append value => simp only [apply, appendValue_eq, CompiledPath.resolve, hnode, lost]
  | add value | setField value | remove =>
      have hresolve := Path.resolve_cons_lost hbehind hchild
      simp only [apply, addValue, addTarget, setValue, removeValue, CompiledPath.resolve, hresolve,
        Resolution.container?, Bool.false_eq_true, if_false, Option.filter_none, lost]

end Edit

end DocPath
