import DocPath.Proofs.Fields
import DocPath.Value.Slot

/-!
# Slots as lenses

Reading and writing walk a document by the same keys, one step at a time, and they agree:
a slot opens exactly where something is found, and holds just that (`slot?_held`). A value
put into a slot is found there (`find?_fill`), and every list of keys that leaves the
route to the slot finds what it found before (`find?_fill_of_leaves`). To put back what a slot
holds changes nothing (`fill_held`), and a slot that is opened again after a write is the same
slot with another value in it (`slot?_fill`). Together they are the laws of a lens (`replacing_is_lens`).

Keys of different types may address one child, so whether two keys part ways is a matter
of the value they are followed from (`SameChild`).
-/

namespace DocPath

namespace Value

/-- Two keys address the same child of a value, or neither addresses any. -/
def SameChild (v k l : Value) : Prop :=
  match v with
  | .object _ => k.fieldName? = l.fieldName?
  | .array _ => k.index? = l.index?
  | _ => True

/-- Keys leave a route if, from a node on the way, they go on to another child than the
route does. Keys that end on the route, or go on behind its end, do not leave it. -/
def Leaves : Value → List Value → List Value → Prop
  | v, k :: route, l :: keys =>
      ¬ v.SameChild k l ∨ ∃ child, v.child? k = some child ∧ child.Leaves route keys
  | _, _, _ => False

theorem SameChild.refl (v k : Value) : v.SameChild k k := by
  cases v <;> first | rfl | trivial

/-! ## One step -/

theorem childSlot?_held (v key : Value) :
    (v.childSlot? key).map Slot.held = v.child? key := by
  cases v with
  | object fields =>
      cases hn : key.fieldName? <;> simp [childSlot?, child?, hn, Function.comp_def]
  | array items =>
      cases hi : key.index? <;> simp [childSlot?, child?, hi, Function.comp_def]
  | _ => rfl

theorem child?_of_childSlot? {v key : Value} {s : Slot} (h : v.childSlot? key = some s) :
    v.child? key = some s.held := by
  rw [← childSlot?_held, h]
  rfl

theorem child?_of_childSlot?_eq_none {v key : Value} (h : v.childSlot? key = none) :
    v.child? key = none := by
  rw [← childSlot?_held, h]
  rfl

theorem exists_childSlot?_of_child? {v key child : Value} (h : v.child? key = some child) :
    ∃ s, v.childSlot? key = some s ∧ s.held = child := by
  rw [← childSlot?_held] at h
  exact Option.map_eq_some_iff.mp h

/-- A slot of a child is that of a field or of an item, and filling it changes that one. -/
theorem childSlot?_cases {v key : Value} {s : Slot} (h : v.childSlot? key = some s) :
    (∃ fields name, v = .object fields ∧ key.fieldName? = some name ∧
      Fields.get? fields name = some s.held ∧
      ∀ w, s.fill w = .object (Fields.replace fields name w)) ∨
    (∃ items i, v = .array items ∧ key.index? = some i ∧ items[i]? = some s.held ∧
      ∀ w, s.fill w = .array (items.set i w)) := by
  cases v with
  | object fields =>
      obtain ⟨name, hname, hslot⟩ := Option.bind_eq_some_iff.mp h
      obtain ⟨held, hheld, rfl⟩ := Option.map_eq_some_iff.mp hslot
      exact Or.inl ⟨fields, name, rfl, hname, hheld, fun _ => rfl⟩
  | array items =>
      obtain ⟨i, hi, hslot⟩ := Option.bind_eq_some_iff.mp h
      obtain ⟨held, hheld, rfl⟩ := Option.map_eq_some_iff.mp hslot
      exact Or.inr ⟨items, i, rfl, hi, hheld, fun _ => rfl⟩
  | _ => simp [childSlot?] at h

theorem child?_of_sameChild {v k l : Value} (h : v.SameChild k l) : v.child? k = v.child? l := by
  cases v with
  | object fields => simp [child?, show k.fieldName? = l.fieldName? from h]
  | array items => simp [child?, show k.index? = l.index? from h]
  | _ => rfl

theorem childSlot?_of_sameChild {v k l : Value} (h : v.SameChild k l) :
    v.childSlot? k = v.childSlot? l := by
  cases v with
  | object fields => simp [childSlot?, show k.fieldName? = l.fieldName? from h]
  | array items => simp [childSlot?, show k.index? = l.index? from h]
  | _ => rfl

theorem child?_fill_of_sameChild {v k l : Value} {s : Slot} (h : v.childSlot? k = some s)
    (hsame : v.SameChild k l) (w : Value) : (s.fill w).child? l = some w := by
  rcases childSlot?_cases h with ⟨fields, name, rfl, hk, hheld, hfill⟩ |
    ⟨items, i, rfl, hk, hheld, hfill⟩
  · have hl : l.fieldName? = some name := hk ▸ Eq.symm hsame
    simp [hfill, child?, hl, Fields.get?_replace, Fields.has, hheld]
  · have hl : l.index? = some i := hk ▸ Eq.symm hsame
    have hi : i < items.length := (List.getElem?_eq_some_iff.mp hheld).1
    simp [hfill, child?, hl, hi]

theorem child?_fill_of_not_sameChild {v k l : Value} {s : Slot} (h : v.childSlot? k = some s)
    (hother : ¬ v.SameChild k l) (w : Value) : (s.fill w).child? l = v.child? l := by
  rcases childSlot?_cases h with ⟨fields, name, rfl, hk, hheld, hfill⟩ |
    ⟨items, i, rfl, hk, hheld, hfill⟩
  · cases hl : l.fieldName? with
    | none => simp [hfill, child?, hl]
    | some other =>
        have hne : other ≠ name := fun e => hother (by simp [SameChild, hk, hl, e])
        simp [hfill, child?, hl, Fields.get?_replace, hne]
  · cases hl : l.index? with
    | none => simp [hfill, child?, hl]
    | some j =>
        have hne : i ≠ j := fun e => hother (by simp [SameChild, hk, hl, e])
        simp [hfill, child?, hl, hne]

theorem fill_held_of_childSlot? {v key : Value} {s : Slot} (h : v.childSlot? key = some s) :
    s.fill s.held = v := by
  rcases childSlot?_cases h with ⟨fields, name, rfl, -, hheld, hfill⟩ |
    ⟨items, i, rfl, -, hheld, hfill⟩
  · rw [hfill, Fields.replace_of_get? hheld]
  · obtain ⟨hi, heq⟩ := List.getElem?_eq_some_iff.mp hheld
    rw [hfill, ← heq, List.set_getElem_self]

theorem childSlot?_fill {v key : Value} {s : Slot} (h : v.childSlot? key = some s) (w : Value) :
    (s.fill w).childSlot? key = some ⟨w, s.fill⟩ := by
  rcases childSlot?_cases h with ⟨fields, name, rfl, hkey, hheld, hfill⟩ |
    ⟨items, i, rfl, hkey, hheld, hfill⟩
  · have hget : (Fields.replace fields name w).get? name = some w := by
      simp [Fields.get?_replace, Fields.has, hheld]
    have hagain : s.fill = fun x => .object (Fields.replace (Fields.replace fields name w) name x) := by
      funext x
      rw [hfill, Fields.replace_replace]
    rw [hfill, childSlot?, hkey, Option.bind_some, hget, hagain]
    rfl
  · have hi : i < items.length := (List.getElem?_eq_some_iff.mp hheld).1
    have hagain : s.fill = fun x => .array ((items.set i w).set i x) := by
      funext x
      rw [hfill, List.set_set]
    rw [hfill, childSlot?, hkey, Option.bind_some, List.getElem?_set_self hi, hagain]
    rfl

/-! ## Many steps -/

theorem find?_eq_foldlM (doc : Value) (keys : List Value) :
    doc.find? keys = keys.foldlM child? doc := by
  induction keys generalizing doc with
  | nil => rfl
  | cons key keys ih =>
      rw [find?, List.foldlM_cons]
      exact congrArg (doc.child? key).bind (funext ih)

theorem find?_append (doc : Value) (keys more : List Value) :
    doc.find? (keys ++ more) = (doc.find? keys).bind (find? · more) := by
  induction keys generalizing doc with
  | nil => rfl
  | cons key keys ih =>
      rw [List.cons_append, find?, find?, Option.bind_assoc]
      exact congrArg (doc.child? key).bind (funext ih)

@[simp] theorem slot?_nil (doc : Value) : doc.slot? [] = some ⟨doc, id⟩ := rfl

/-- A slot opened from inside another one fills both. -/
theorem foldlM_inner? (s : Slot) (keys : List Value) :
    keys.foldlM Slot.inner? s =
      (s.held.slot? keys).map fun t => ⟨t.held, fun w => s.fill (t.fill w)⟩ := by
  unfold slot?
  -- both sides open the first key; what is filled behind it is associative
  induction keys generalizing s with
  | nil => rfl
  | cons key keys ih =>
      rw [List.foldlM_cons, List.foldlM_cons]
      cases hs : s.held.childSlot? key with
      | none => simp [Slot.inner?, hs]
      | some c =>
          simp only [Slot.inner?, hs, Option.map_some, Option.bind_eq_bind, Option.bind_some, id_eq]
          rw [ih ⟨c.held, fun w => s.fill (c.fill w)⟩, ih ⟨c.held, fun w => c.fill w⟩,
            Option.map_map]
          rfl

theorem slot?_cons (doc key : Value) (keys : List Value) :
    doc.slot? (key :: keys) = (doc.childSlot? key).bind fun s =>
      (s.held.slot? keys).map fun t => ⟨t.held, fun w => s.fill (t.fill w)⟩ := by
  rw [slot?, List.foldlM_cons]
  cases hs : doc.childSlot? key with
  | none => simp [Slot.inner?, hs]
  | some s => simp [Slot.inner?, hs, foldlM_inner?]

/-- **Reading and writing reach the same.** A slot opens exactly where something is found,
and holds what is found. -/
theorem slot?_held (doc : Value) (keys : List Value) :
    (doc.slot? keys).map Slot.held = doc.find? keys := by
  induction keys generalizing doc with
  | nil => rfl
  | cons key keys ih =>
      rw [slot?_cons, find?, ← childSlot?_held]
      cases doc.childSlot? key with
      | none => rfl
      | some s => simpa [Function.comp_def] using ih s.held

theorem find?_of_slot? {doc : Value} {keys : List Value} {s : Slot}
    (h : doc.slot? keys = some s) : doc.find? keys = some s.held := by
  rw [← slot?_held, h]
  rfl

theorem exists_slot?_of_find? {doc v : Value} {keys : List Value}
    (h : doc.find? keys = some v) : ∃ s, doc.slot? keys = some s ∧ s.held = v := by
  rw [← slot?_held] at h
  exact Option.map_eq_some_iff.mp h

/-- The first step of an open slot, and the slot behind it. -/
theorem slot?_cons_eq_some {doc key : Value} {keys : List Value} {s : Slot}
    (h : doc.slot? (key :: keys) = some s) :
    ∃ first rest, doc.childSlot? key = some first ∧ first.held.slot? keys = some rest ∧
      rest.held = s.held ∧ ∀ w, s.fill w = first.fill (rest.fill w) := by
  rw [slot?_cons] at h
  obtain ⟨first, hfirst, hrest⟩ := Option.bind_eq_some_iff.mp h
  obtain ⟨rest, hrest', rfl⟩ := Option.map_eq_some_iff.mp hrest
  exact ⟨first, rest, hfirst, hrest', rfl, fun _ => rfl⟩

theorem replace?_of_slot? {doc held new : Value} {keys : List Value} {fill : Value → Value}
    (h : doc.slot? keys = some ⟨held, fill⟩) : doc.replace? keys new = some (fill new) := by
  rw [replace?, h]
  rfl

/-- What is put into a slot is found there. -/
theorem find?_fill {doc : Value} {keys : List Value} {s : Slot} (h : doc.slot? keys = some s)
    (w : Value) : (s.fill w).find? keys = some w := by
  induction keys generalizing doc s with
  | nil =>
      obtain rfl : ⟨doc, id⟩ = s := by simpa using h
      rfl
  | cons key keys ih =>
      obtain ⟨first, rest, hfirst, hrest, -, hfill⟩ := slot?_cons_eq_some h
      rw [hfill, find?, child?_fill_of_sameChild hfirst (SameChild.refl doc key)]
      exact ih hrest

/-- To put back what a slot holds changes nothing. -/
theorem fill_held {doc : Value} {keys : List Value} {s : Slot} (h : doc.slot? keys = some s) :
    s.fill s.held = doc := by
  induction keys generalizing doc s with
  | nil =>
      obtain rfl : ⟨doc, id⟩ = s := by simpa using h
      rfl
  | cons key keys ih =>
      obtain ⟨first, rest, hfirst, hrest, hheld, hfill⟩ := slot?_cons_eq_some h
      rw [hfill, ← hheld, ih hrest]
      exact fill_held_of_childSlot? hfirst

/-- A slot that is opened again after a write is the same slot. -/
theorem slot?_fill {doc : Value} {keys : List Value} {s : Slot} (h : doc.slot? keys = some s)
    (w : Value) : (s.fill w).slot? keys = some ⟨w, s.fill⟩ := by
  induction keys generalizing doc s with
  | nil =>
      obtain rfl : ⟨doc, id⟩ = s := by simpa using h
      rfl
  | cons key keys ih =>
      obtain ⟨first, rest, hfirst, hrest, -, hfill⟩ := slot?_cons_eq_some h
      have hwhole : s.fill = fun x => first.fill (rest.fill x) := funext hfill
      rw [hfill, slot?_cons, childSlot?_fill hfirst, Option.bind_some, ih hrest, hwhole]
      rfl

/-- **Frame.** Writing to a slot is not seen by keys that leave the route to it. -/
theorem find?_fill_of_leaves {doc : Value} {route keys : List Value} {s : Slot}
    (h : doc.slot? route = some s) (hleaves : doc.Leaves route keys) (w : Value) :
    (s.fill w).find? keys = doc.find? keys := by
  induction route generalizing doc keys s with
  | nil => exact hleaves.elim
  | cons k route ih =>
      cases keys with
      | nil => exact hleaves.elim
      | cons l keys =>
          obtain ⟨first, rest, hfirst, hrest, -, hfill⟩ := slot?_cons_eq_some h
          rw [hfill, find?, find?]
          -- the keys part here, or they go on in the same child and part further below
          by_cases hsame : doc.SameChild k l
          · have hchild : doc.child? k = some first.held := child?_of_childSlot? hfirst
            obtain ⟨child, hc, hbelow⟩ := hleaves.resolve_left (not_not_intro hsame)
            obtain rfl : first.held = child := Option.some.inj (hchild.symm.trans hc)
            rw [child?_fill_of_sameChild hfirst hsame, ← child?_of_sameChild hsame, hchild]
            exact ih hrest hbelow
          · rw [child?_fill_of_not_sameChild hfirst hsame]

/-! ## The laws of a lens -/

/-- A slot is there to write to exactly where there is something to read. -/
theorem isSome_replace? (doc : Value) (keys : List Value) (v : Value) :
    (doc.replace? keys v).isSome = (doc.find? keys).isSome := by
  rw [replace?, ← slot?_held, Option.isSome_map, Option.isSome_map]

theorem exists_slot?_of_replace? {doc new v : Value} {keys : List Value}
    (h : doc.replace? keys v = some new) : ∃ s, doc.slot? keys = some s ∧ s.fill v = new :=
  Option.map_eq_some_iff.mp h

/-- To put back what was found gives the document that there was. -/
theorem replace?_find? {doc old : Value} {keys : List Value} (h : doc.find? keys = some old) :
    doc.replace? keys old = some doc := by
  obtain ⟨s, hs, rfl⟩ := exists_slot?_of_find? h
  rw [replace?, hs, Option.map_some, fill_held hs]

/-- The second of two writes wins. -/
theorem replace?_replace? {doc new v : Value} {keys : List Value}
    (h : doc.replace? keys v = some new) (w : Value) :
    new.replace? keys w = doc.replace? keys w := by
  obtain ⟨s, hs, rfl⟩ := exists_slot?_of_replace? h
  rw [replace?, replace?, slot?_fill hs v, hs]
  rfl

/-- **Writing through keys is a lens.** It succeeds exactly where the keys find something. What was
written is found, what there was can be put back, at once or later, and of two writes only the second
counts. Keys that go on to another child somewhere on the way find what they found before. -/
theorem replacing_is_lens (doc : Value) (keys : List Value) (v : Value) :
    (doc.replace? keys v).isSome = (doc.find? keys).isSome ∧
    ∀ new, doc.replace? keys v = some new →
      new.find? keys = some v ∧
      (∀ old, doc.find? keys = some old →
        doc.replace? keys old = some doc ∧ new.replace? keys old = some doc) ∧
      (∀ w, new.replace? keys w = doc.replace? keys w) ∧
      ∀ others, doc.Leaves keys others → new.find? others = doc.find? others := by
  refine ⟨isSome_replace? doc keys v, ?_⟩
  intro new hnew
  obtain ⟨s, hs, rfl⟩ := exists_slot?_of_replace? hnew
  refine ⟨find?_fill hs v, ?_, replace?_replace? hnew, ?_⟩
  · intro old hold
    rw [replace?_replace? hnew]
    exact ⟨replace?_find? hold, replace?_find? hold⟩
  · intro others hleaves
    exact find?_fill_of_leaves hs hleaves v

/-- The string leads to the second item, the floating-point number to the first. -/
theorem replacing_is_lens_item :
    let doc : Value := .object [("a", .array [.null, .object [("1", .boolean true)]])]
    let new : Value := .object [("a", .array [.null, .object [("1", .string "x")]])]
    let keys : List Value := [.string "a", .string "1", .integer 1]
    let others : List Value := [.string "a", .float (.zero false)]
    doc.replace? keys (.string "x") = some new ∧ doc.find? keys = some (.boolean true) ∧
    doc.Leaves keys others ∧
    new.find? keys = some (.string "x") ∧ new.replace? keys (.boolean true) = some doc ∧
    new.replace? keys .null = doc.replace? keys .null ∧ new.find? others = doc.find? others := by
  intro doc new keys others
  have hnew : doc.replace? keys (.string "x") = some new := rfl
  have hold : doc.find? keys = some (.boolean true) := rfl
  have hleaves : doc.Leaves keys others := by
    refine Or.inr ⟨.array [.null, .object [("1", .boolean true)]], rfl, Or.inl ?_⟩
    show ¬(Value.string "1").index? = (Value.float (.zero false)).index?
    decide +kernel
  obtain ⟨hfound, hback, hlast, hother⟩ := (replacing_is_lens doc keys (.string "x")).2 new hnew
  exact ⟨hnew, hold, hleaves, hfound, (hback _ hold).2, hlast .null, hother others hleaves⟩

end Value

end DocPath
