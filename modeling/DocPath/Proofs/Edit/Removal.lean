import DocPath.Proofs.Edit.Decision
import DocPath.Proofs.Edit.Frame
import DocPath.Proofs.Edit.Position
import DocPath.Proofs.Edit.ReadBack
import DocPath.Proofs.Path.Printing

/-!
# What a removal takes out

A removal from a list is exact whatever the size of the number in its key
(`Edit.remove_splices_list`): the number is truncated toward zero and counted from the start or
from the end, and just the item at that position goes. So a removal and a lookup, which reads keys
in its own way, agree on all that a lookup finds (`Edit.remove_deletes_node`): they can only come
apart on keys that find nothing in a list, which are negative or fractional, and on the numerals
that a removal refuses.

No list in memory has `2 ^ 63` items, and for longer ones the conversions to 64 bits could be seen.
-/

namespace DocPath

/-! ## Lists without an item -/

/-- A list without the item at a position: those before it keep their places, and those behind it
move up by one. -/
structure Spliced (i : Nat) (old new : List Value) : Prop where
  length : new.length + 1 = old.length
  before : ∀ j < i, new[j]? = old[j]?
  behind : ∀ j, i ≤ j → new[j]? = old[j + 1]?

theorem spliced_eraseIdx {items : List Value} {i : Nat} (h : i < items.length) :
    Spliced i items (items.eraseIdx i) where
  length := by
    rw [List.length_eraseIdx_of_lt h]
    omega
  before _ hj := List.getElem?_eraseIdx_of_lt hj
  behind _ hj := List.getElem?_eraseIdx_of_ge hj

/-- One child of a container is deleted, the one that a lookup by the key finds there. -/
inductive Deletes (key node : Value) : Value → Value → Prop where
  | item {before after : List Value} (hindex : key.index? = some before.length) :
      Deletes key node (.array (before ++ node :: after)) (.array (before ++ after))
  | field {name : String} {old new : Fields Value} (hname : key.fieldName? = some name)
      (hdiffer : Fields.DifferAt name (some node) none old new) :
      Deletes key node (.object old) (.object new)

theorem deletes_eraseIdx {key node : Value} {items : List Value} {i : Nat}
    (hindex : key.index? = some i) (hnode : items[i]? = some node) :
    Deletes key node (.array items) (.array (items.eraseIdx i)) := by
  obtain ⟨hlt, rfl⟩ := List.getElem?_eq_some_iff.mp hnode
  obtain ⟨before, old, after, rfl, rfl⟩ := Edit.exists_append_cons hlt
  rw [Edit.eraseIdx_append_cons, List.getElem_append_right (Nat.le_refl _)]
  simp only [Nat.sub_self, List.getElem_cons_zero]
  exact .item hindex

/-! ## Compiled paths have a last key -/

theorem CompiledPath.path_ne_nil {source : String} {path : CompiledPath}
    (h : compile source = .ok path) : path.path ≠ [] := by
  unfold compile at h
  cases hparse : Path.parse source with
  | error e =>
      rw [hparse] at h
      cases h
  | ok p =>
      rw [hparse] at h
      cases h
      exact (Path.wellFormed_of_parse hparse).1

theorem Path.exists_lastKey {path : Path} {scope : Scope} {document : Value} (hne : path ≠ [])
    (hok : (path.resolve scope document).ok = true) :
    ∃ key, (path.resolve scope document).lastKey = some key := by
  have hlast : (path.resolve scope document).lastKey =
      (path.resolve scope document).resolvedKeys.getLast? :=
    (path.resolve_tracks scope document).lastKey
  have hkeys : (path.resolve scope document).resolvedKeys ≠ [] := by
    rw [resolvedKeys_of_ok hok]
    exact mt List.map_eq_nil_iff.mp hne
  rw [hlast, List.getLast?_eq_some_getLast hkeys]
  exact ⟨_, rfl⟩

namespace Edit

variable {document : Value} {path : CompiledPath} {scope : Scope}

/-! ## Lists -/

/-- **A removal from a list is an exact splice.** Exactly the keys that are no numbers are
rejected. Any other one takes out the item at its exact value, truncated toward zero and counted
from the end if it is negative, or nothing if there is no such item. -/
theorem remove_splices_list (document : Value) (path : CompiledPath) (scope : Scope)
    {items : List Value} {key : Value}
    (hlist : (path.resolve scope document).container? = some (.array items))
    (hkey : (path.resolve scope document).lastKey = some key) (hlength : items.length < 2 ^ 63) :
    let r := path.resolve scope document
    let edited := Edit.remove.apply document path scope
    (edited.outcome = .rejected ⟨path.source, .invalidIndex (some key) items.length⟩ ↔
      (∀ n, key ≠ .integer n) ∧ ∀ x, key = .float x → x.isFinite = false) ∧
    ∀ q, key.number? = some q →
      let i := listPosition items.length (towardZero q)
      (i < items.length → edited.outcome = .removed key ∧
        ∃ new, Spliced i items new ∧
          document.replace? r.parentKeys (.array new) = some edited.document) ∧
      (items.length ≤ i → edited.outcome = .ignored ∧ edited.document = document) := by
  intro r edited
  obtain ⟨fill, hslot, hedited⟩ := removeValue_of_array hlist hkey
  change edited = _ at hedited
  rw [← Value.number?_eq_none_iff]
  constructor
  · rw [hedited]
    cases hi : removalIndex? key items.length with
    | none => exact iff_of_true rfl (removalIndex?_eq_none_iff.mp hi)
    | some i =>
        refine iff_of_false ?_ fun hnone => ?_
        · simp only
          split <;> exact nofun
        · rw [removalIndex?_eq_none_iff.mpr hnone] at hi
          cases hi
  · intro q hq i
    obtain ⟨j, hj, hmin⟩ := removalIndex?_of_number? hq hlength
    rw [hj] at hedited
    simp only at hedited
    constructor
    · intro hlt
      obtain rfl : j = i := by omega
      rw [if_pos hlt] at hedited
      rw [hedited]
      exact ⟨rfl, _, spliced_eraseIdx hlt, Value.replace?_of_slot? hslot⟩
    · intro hle
      rw [if_neg (by omega)] at hedited
      rw [hedited]
      exact ⟨rfl, rfl⟩

/-- The number `-2 ^ 70`, which is far below all that 64 bits hold, takes out the first item. -/
theorem remove_splices_list_far_below :
    let items := [Value.integer 1, .integer 2]
    let document := Value.object [("l", .array items)]
    let path : CompiledPath := ⟨"l[$i]", [.name "l", .variable "i"]⟩
    let key := Value.float (.finite true 1093 0)
    let scope := Scope.outermost [("i", key)]
    let r := path.resolve scope document
    let edited := Edit.remove.apply document path scope
    r.container? = some (.array items) ∧ r.lastKey = some key ∧ items.length < 2 ^ 63 ∧
    key.number? = some (-2 ^ 70) ∧ edited.outcome = .removed key ∧
    ∃ new, Spliced 0 items new ∧
      document.replace? [.string "l"] (.array new) = some edited.document := by
  intro items document path key scope r edited
  have hlength : items.length < 2 ^ 63 := by decide
  have hnumber : key.number? = some ((-2 ^ 70 : Int) : Rat) := by
    have hmagnitude : Binary64.magnitude 1093 0 = ⟨2 ^ 52, 18⟩ := by decide
    norm_num [key, Value.number?, Binary64.toRat?, hmagnitude, Dyadic.toRat]
  have hposition : listPosition items.length (towardZero ((-2 ^ 70 : Int) : Rat)) = 0 := by
    rw [towardZero_intCast]
    decide
  obtain ⟨-, hremoves⟩ := remove_splices_list document path scope rfl rfl hlength
  obtain ⟨hremoved, -⟩ := hremoves _ hnumber
  rw [hposition] at hremoved
  obtain ⟨houtcome, hspliced⟩ := hremoved (by decide)
  exact ⟨rfl, rfl, hlength, by exact_mod_cast hnumber, houtcome, hspliced⟩

/-! ## Lookup and removal -/

/-- What a removal does that takes out the child which a lookup by its key finds. -/
structure RemovesNode (document : Value) (r : Resolution) (key node container : Value)
    (edited : Edited) : Prop where
  outcome : edited.outcome = .removed key
  deletes : ∃ new, Deletes key node container new ∧
    document.replace? r.parentKeys new = some edited.document

theorem RemovesNode.not_rejected {r : Resolution} {key node container : Value} {edited : Edited}
    (h : RemovesNode document r key node container edited) :
    ¬ ∃ error, edited.outcome = .rejected error := by
  rintro ⟨error, herror⟩
  cases h.outcome.symm.trans herror

theorem removesNode_of_field {fields : Fields Value} {key node : Value}
    (hcontainer : (path.resolve scope document).container? = some (.object fields))
    (hkey : (path.resolve scope document).lastKey = some key)
    (hnode : (Value.object fields).child? key = some node) :
    RemovesNode document (path.resolve scope document) key node (.object fields)
      (removeValue document path scope) := by
  obtain ⟨name, hname, hget⟩ := Option.bind_eq_some_iff.mp hnode
  have hhas : fields.has name = true := Option.isSome_of_eq_some hget
  obtain ⟨fill, hslot, hedited⟩ := removeValue_of_field hcontainer hkey hname hhas
  rw [hedited]
  refine ⟨rfl, _, .field hname ?_, Value.replace?_of_slot? hslot⟩
  exact hget ▸ Fields.differAt_erase fields name

theorem removesNode_of_item {items : List Value} {key node : Value}
    (hcontainer : (path.resolve scope document).container? = some (.array items))
    (hkey : (path.resolve scope document).lastKey = some key)
    (hnode : (Value.array items).child? key = some node) (hlength : items.length < 2 ^ 63)
    (hstring : ∀ s, key ≠ .string s) :
    RemovesNode document (path.resolve scope document) key node (.array items)
      (removeValue document path scope) := by
  obtain ⟨i, hi, hitem⟩ := Option.bind_eq_some_iff.mp hnode
  have hlt : i < items.length := (List.getElem?_eq_some_iff.mp hitem).1
  obtain ⟨fill, hslot, hedited⟩ := removeValue_of_array hcontainer hkey
  simp only [removalIndex?_of_index? hi hlt hlength hstring, if_pos hlt] at hedited
  rw [hedited]
  exact ⟨rfl, _, deletes_eraseIdx hi hitem, Value.replace?_of_slot? hslot⟩

/-- A numeral is refused in a list. -/
theorem removeValue_of_string {items : List Value} {s : String}
    (hcontainer : (path.resolve scope document).container? = some (.array items))
    (hkey : (path.resolve scope document).lastKey = some (.string s)) :
    removeValue document path scope =
      rejected document path (.invalidIndex (some (.string s)) items.length) := by
  obtain ⟨_, _, hedited⟩ := removeValue_of_array hcontainer hkey
  exact hedited

/-- A number by which a removal finds an item and a lookup does not is negative or fractional. -/
theorem number_of_removal_only {items : List Value} {key : Value} {i : Nat}
    (hlength : items.length < 2 ^ 63) (hi : removalIndex? key items.length = some i)
    (hlt : i < items.length) (hnode : (Value.array items).child? key = none) :
    ∃ q, key.number? = some q ∧ (q < 0 ∨ ∀ z : Int, q ≠ z) := by
  obtain ⟨q, hq⟩ : ∃ q, key.number? = some q := by
    rw [← Option.isSome_iff_exists, Option.isSome_iff_ne_none]
    intro hnone
    rw [removalIndex?_eq_none_iff.mpr hnone] at hi
    cases hi
  refine ⟨q, hq, ?_⟩
  by_contra hnatural
  push Not at hnatural
  obtain ⟨hnonneg, z, rfl⟩ := hnatural
  obtain ⟨n, rfl⟩ := Int.eq_ofNat_of_zero_le (by exact_mod_cast hnonneg : 0 ≤ z)
  -- both would go to the item `n`
  obtain ⟨j, hj, hmin⟩ := removalIndex?_of_natCast hq hlength
  obtain rfl : i = j := Option.some.inj (hi.symm.trans hj)
  rw [Value.child?_array (Value.index?_of_number? hq), List.getElem?_eq_none_iff] at hnode
  omega

theorem ok_of_removed (h : (removeValue document path scope).outcome.isApplied = true) :
    (path.resolve scope document).ok = true := by
  apply ok_of_isApplied h
  intro hnone
  simp [removeValue, hnone, ignored, Outcome.isApplied]

/-- **Removal and lookup agree.** What a path leads to is what a removal takes out, but for the
numerals that it refuses in a list. When a path leads to nothing and yet something is taken out, it
is an item of a list, by a number that is negative or fractional. -/
theorem remove_deletes_node {source : String} {path : CompiledPath}
    (hcompiled : CompiledPath.compile source = .ok path) (document : Value) (scope : Scope)
    (hmemory : ∀ items, (path.resolve scope document).container? = some (.array items) →
      items.length < 2 ^ 63) :
    let r := path.resolve scope document
    let edited := Edit.remove.apply document path scope
    (∀ node, r.node = some node → ∃ key container, r.lastKey = some key ∧
      r.container? = some container ∧
      ((∃ error, edited.outcome = .rejected error) ↔
        (∃ items, container = .array items) ∧ ∃ s, key = .string s) ∧
      (¬ ((∃ items, container = .array items) ∧ ∃ s, key = .string s) →
        RemovesNode document r key node container edited)) ∧
    (r.node = none → edited.outcome.isApplied = true →
      ∃ items key q, r.container? = some (.array items) ∧ items ≠ [] ∧ r.lastKey = some key ∧
        key.number? = some q ∧ (q < 0 ∨ ∀ z : Int, q ≠ z)) := by
  intro r edited
  constructor
  · intro node hnode
    have hok := Path.ok_of_node _ _ _ hnode
    obtain ⟨key, hkey⟩ := Path.exists_lastKey (CompiledPath.path_ne_nil hcompiled) hok
    have hcontainer : r.container? = some r.parent :=
      Resolution.container?_eq_some.mpr ⟨hok, rfl⟩
    have hchild : r.parent.child? key = some node :=
      (Path.node_eq_child? hkey (Path.find?_parentKeys _ _ _)).symm.trans hnode
    refine ⟨key, r.parent, hkey, hcontainer, ?_⟩
    cases hparent : r.parent with
    | object fields =>
        rw [hparent] at hcontainer hchild
        have hremoves := removesNode_of_field hcontainer hkey hchild
        exact ⟨iff_of_false hremoves.not_rejected nofun, fun _ => hremoves⟩
    | array items =>
        rw [hparent] at hcontainer hchild
        by_cases hstring : ∃ s, key = .string s
        · refine ⟨iff_of_true ?_ ⟨⟨items, rfl⟩, hstring⟩, fun hnot => ?_⟩
          · obtain ⟨s, rfl⟩ := hstring
            exact ⟨_, congrArg Edited.outcome (removeValue_of_string hcontainer hkey)⟩
          · exact (hnot ⟨⟨items, rfl⟩, hstring⟩).elim
        · have hremoves := removesNode_of_item hcontainer hkey hchild (hmemory items hcontainer)
            fun s hs => hstring ⟨s, hs⟩
          exact ⟨iff_of_false hremoves.not_rejected fun h => hstring h.2, fun _ => hremoves⟩
    | _ =>
        rw [hparent] at hchild
        cases hchild
  · intro hnone happlied
    obtain ⟨slot, key, new, hslot, hkey, hwithout, -⟩ := removeValue_applied happlied
    have hheld : slot.held = r.parent :=
      Option.some.inj ((Value.find?_of_slot? hslot).symm.trans (Path.find?_parentKeys _ _ _))
    have hcontainer : r.container? = some slot.held :=
      Resolution.container?_eq_some.mpr ⟨ok_of_removed happlied, hheld.symm⟩
    have hchild : slot.held.child? key = none :=
      (Path.node_eq_child? hkey (Value.find?_of_slot? hslot)).symm.trans hnone
    rcases without?_eq_some hwithout with ⟨items, i, hitems, hi, hlt, -⟩ |
      ⟨fields, name, hfields, hname, hhas, -⟩
    · rw [hitems] at hcontainer hchild
      obtain ⟨q, hq, hodd⟩ := number_of_removal_only (hmemory items hcontainer) hi hlt hchild
      exact ⟨items, key, q, hcontainer, List.ne_nil_of_length_pos (by omega), hkey, hq, hodd⟩
    · rw [hfields, Value.child?_object hname] at hchild
      rw [Fields.has, hchild] at hhas
      cases hhas

/-- The number one takes out the item that it leads to; `-0.5` leads nowhere and takes out the
first item. -/
theorem remove_deletes_node_by_number :
    let document := Value.object [("l", .array [.integer 1, .integer 2])]
    let path : CompiledPath := ⟨"l[$i]", [.name "l", .variable "i"]⟩
    let one := Scope.outermost [("i", .float (.ofNat 1))]
    let below := Scope.outermost [("i", .float (.finite true 1022 0))]
    CompiledPath.compile "l[$i]" = .ok path ∧
    (path.resolve one document).node = some (.integer 2) ∧
    RemovesNode document (path.resolve one document) (.float (.ofNat 1)) (.integer 2)
      (.array [.integer 1, .integer 2]) (Edit.remove.apply document path one) ∧
    (path.resolve below document).node = none ∧
    (Edit.remove.apply document path below).outcome.isApplied = true ∧
    ∃ q, (Value.float (.finite true 1022 0)).number? = some q ∧ (q < 0 ∨ ∀ z : Int, q ≠ z) := by
  intro document path one below
  have hcompiled : CompiledPath.compile "l[$i]" = .ok path := by decide +kernel
  have hmemory (scope : Scope) : ∀ items,
      (path.resolve scope document).container? = some (.array items) → items.length < 2 ^ 63 := by
    intro items hitems
    cases (show (path.resolve scope document).container? = _ from rfl).symm.trans hitems
    decide
  have hnode : (path.resolve one document).node = some (.integer 2) := rfl
  have hnone : (path.resolve below document).node = none := rfl
  have happlied : (Edit.remove.apply document path below).outcome.isApplied = true := by
    decide +kernel
  obtain ⟨hfound, -⟩ := remove_deletes_node hcompiled document one (hmemory one)
  obtain ⟨key, container, hkey, hcontainer, -, hremoves⟩ := hfound _ hnode
  cases hkey
  cases hcontainer
  obtain ⟨-, hodd⟩ := remove_deletes_node hcompiled document below (hmemory below)
  obtain ⟨items, key, q, -, -, hbelow, hq, hnumber⟩ := hodd hnone happlied
  cases hbelow
  exact ⟨hcompiled, hnode, hremoves nofun, hnone, happlied, q, hq, hnumber⟩

end Edit

end DocPath
