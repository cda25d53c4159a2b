import DocPath.Proofs.Edit.Decision
import DocPath.Proofs.Edit.Endings
import DocPath.Proofs.Edit.Frame
import DocPath.Proofs.Edit.Position
import DocPath.Proofs.Edit.ReadBack

/-!
# Writing into lists

`setField` writes into a list at just the position that the key denotes, over an item or behind the
end with nulls in between (`ItemWritten`), and rejects positions that are too far behind the end. No
number on the way is out of the range of 64 bits (`Edit.set_writes_at_position`).

What one call adds to a list is bounded (`Edit.SetCall.list_grows`), and so is what many calls add,
whatever they write elsewhere (`Edit.SetCall.run_list_grows`). This leaves out the calls that put
another value in the place of the list, or of a node that the list lies in (`Value.Covers`): what is
found there afterwards is no longer the list. A call that writes into the list itself is none of
them (`Edit.SetCall.spares_container`).
-/

namespace DocPath

/-! ## One write -/

/-- A list with a value written at a position: over an item, or behind the end with nulls up to
it. -/
structure ItemWritten (i : Nat) (value : Value) (old new : List Value) : Prop where
  length : new.length = if i < old.length then old.length else i + 1
  item : new[i]? = some value
  others : ∀ j < old.length, j ≠ i → new[j]? = old[j]?
  padding : ∀ j, old.length ≤ j → j < i → new[j]? = some .null

theorem itemWritten_set {items : List Value} {i : Nat} (h : i < items.length) (value : Value) :
    ItemWritten i value items (items.set i value) where
  length := by rw [List.length_set, if_pos h]
  item := List.getElem?_set_self h
  others _ _ hne := List.getElem?_set_ne (Ne.symm hne)
  padding _ _ _ := by omega

theorem itemWritten_pad {items : List Value} {i : Nat} (h : items.length ≤ i) (value : Value) :
    ItemWritten i value items (items ++ List.replicate (i - items.length) .null ++ [value]) where
  length := by
    rw [if_neg (Nat.not_lt_of_le h)]
    simp only [List.length_append, List.length_replicate, List.length_singleton]
    omega
  item := by
    have hlength : (items ++ List.replicate (i - items.length) Value.null).length = i := by
      rw [List.length_append, List.length_replicate, Nat.add_sub_cancel' h]
    rw [List.getElem?_append_right (Nat.le_of_eq hlength), hlength, Nat.sub_self]
    rfl
  others j hj _ := by
    rw [List.append_assoc, List.getElem?_append_left hj]
  padding j hle hlt := by
    have hgap : j - items.length < i - items.length := by omega
    rw [List.append_assoc, List.getElem?_append_right hle,
      List.getElem?_append_left (by rwa [List.length_replicate]), List.getElem?_replicate,
      if_pos hgap]

namespace Edit

theorem exists_itemWritten (fill : Value → Value) (items : List Value) (key : Value) (i : Nat)
    (value : Value) :
    ∃ new, ItemWritten i value items new ∧ writeItem fill items key i value =
      ⟨if i < items.length then .overwritten key else .created key, fill (.array new), []⟩ := by
  unfold writeItem
  split
  · rename_i hlt
    exact ⟨_, itemWritten_set hlt value, rfl⟩
  · rename_i hge
    exact ⟨_, itemWritten_pad (Nat.le_of_not_lt hge) value, rfl⟩

end Edit

/-! ## Places and routes -/

namespace Value

/-- The keys lead to the end of a route or to a place on the way there: a value put in that place
takes what the route led to away. -/
def Covers : Value → List Value → List Value → Prop
  | _, [], _ => True
  | v, l :: keys, k :: route =>
      v.SameChild l k ∧ ∃ child, v.child? l = some child ∧ child.Covers keys route
  | _, _ :: _, [] => False

theorem Covers.length_le {v : Value} {keys route : List Value} (h : v.Covers keys route) :
    keys.length ≤ route.length := by
  induction keys generalizing v route with
  | nil => exact Nat.zero_le _
  | cons l keys ih =>
      cases route with
      | nil => exact h.elim
      | cons k route =>
          obtain ⟨-, _, -, hbehind⟩ := h
          exact Nat.succ_le_succ (ih hbehind)

end Value

/-- As far as their lengths go, some writes may have made one list of another: none of them takes
an item out, and none puts more than the padding and a value behind the last one. -/
def GrownFrom (old new : List Value) (writes : Nat) : Prop :=
  old.length ≤ new.length ∧ new.length ≤ old.length + (Edit.maxPadding + 1) * writes

theorem GrownFrom.of_length_eq {old new : List Value} {writes : Nat}
    (h : new.length = old.length) : GrownFrom old new writes :=
  ⟨Nat.le_of_eq h.symm, h ▸ Nat.le_add_right _ _⟩

theorem GrownFrom.trans {first second third : List Value} {writes more : Nat}
    (h : GrownFrom first second writes) (hmore : GrownFrom second third more) :
    GrownFrom first third (more + writes) := by
  refine ⟨Nat.le_trans h.1 hmore.1, ?_⟩
  calc third.length
      ≤ second.length + (Edit.maxPadding + 1) * more := hmore.2
    _ ≤ first.length + (Edit.maxPadding + 1) * writes + (Edit.maxPadding + 1) * more :=
        Nat.add_le_add_right h.2 _
    _ = first.length + (Edit.maxPadding + 1) * (more + writes) := by
        rw [Nat.mul_add]
        omega

namespace Edit

variable {key value old new : Value}

/-- A write to a list leaves a list that is longer by the padding and the value at most. -/
theorem Change.list_grows {key : Option Value} {items : List Value}
    (h : Change (.setField value) key (.array items) new) :
    ∃ grown, new = .array grown ∧ GrownFrom items grown 1 := by
  cases h with
  | setItem hindex => exact ⟨_, rfl, GrownFrom.of_length_eq (by simp)⟩
  | pad hindex hn =>
      refine ⟨_, rfl, ?_⟩
      simp only [GrownFrom, List.length_append, List.length_replicate, List.length_singleton]
      omega

/-- A write to one child leaves the other children as they are. -/
theorem Change.child?_other {l child : Value} (h : Change (.setField value) (some key) old new)
    (hother : ¬ old.SameChild key l) (hchild : old.child? l = some child) :
    new.child? l = some child := by
  cases h with
  | setField hname hdiffer =>
      obtain ⟨name, hl, hget⟩ := Option.bind_eq_some_iff.mp hchild
      rw [Value.child?_object hl, hdiffer.others name, hget]
      rintro rfl
      exact hother (hname.trans hl.symm)
  | @setItem _ _ before after old hindex =>
      obtain ⟨j, hl, hget⟩ := Option.bind_eq_some_iff.mp hchild
      have hne : before.length ≠ j := by
        rintro rfl
        exact hother (Eq.trans hindex hl.symm)
      rw [Value.child?_array hl, ← set_append_cons before old, List.getElem?_set_ne hne, hget]
  | pad hindex hn =>
      obtain ⟨j, hl, hget⟩ := Option.bind_eq_some_iff.mp hchild
      have hj := (List.getElem?_eq_some_iff.mp hget).1
      rw [Value.child?_array hl, List.append_assoc, List.getElem?_append_left hj, hget]

/-- A list that a write does not cover is still there, and longer by the padding and the value at
most. -/
theorem list_grows_of_change {document : Value} {keys route : List Value} {s : Slot}
    {items : List Value} (hslot : document.slot? keys = some s)
    (hchange : Change (.setField value) (some key) s.held new)
    (hfound : document.find? route = some (.array items))
    (hcovers : ¬ document.Covers (keys ++ [key]) route) :
    ∃ grown, (s.fill new).find? route = some (.array grown) ∧ GrownFrom items grown 1 := by
  -- on the keys of the write, which end at the list, part from the route or go on into an item
  induction keys generalizing document route s with
  | nil =>
      obtain rfl : ⟨document, id⟩ = s := by simpa using hslot
      cases route with
      | nil =>
          obtain rfl : document = .array items := Option.some.inj hfound
          obtain ⟨grown, rfl, hgrown⟩ := hchange.list_grows
          exact ⟨grown, rfl, hgrown⟩
      | cons k route =>
          obtain ⟨child, hchild, hbehind⟩ := Option.bind_eq_some_iff.mp hfound
          have hother : ¬ document.SameChild key k := by
            intro hsame
            refine hcovers ⟨hsame, child, ?_, trivial⟩
            rw [Value.child?_of_sameChild hsame, hchild]
          refine ⟨items, ?_, .of_length_eq rfl⟩
          show (new.child? k).bind (Value.find? · route) = some (.array items)
          rw [hchange.child?_other hother hchild]
          exact hbehind
  | cons l keys ih =>
      obtain ⟨first, rest, hfirst, hrest, hheld, hfill⟩ := Value.slot?_cons_eq_some hslot
      rw [← hheld] at hchange
      rw [hfill]
      cases route with
      | nil =>
          obtain rfl : document = .array items := Option.some.inj hfound
          obtain ⟨_, _, hne, _⟩ | ⟨old, i, hold, _, _, hwrite⟩ := Value.childSlot?_cases hfirst
          · cases hne
          · cases hold
            exact ⟨_, congrArg some (hwrite _), .of_length_eq List.length_set⟩
      | cons k route =>
          obtain ⟨child, hchild, hbehind⟩ := Option.bind_eq_some_iff.mp hfound
          by_cases hsame : document.SameChild l k
          · have hstep : document.child? l = some first.held := Value.child?_of_childSlot? hfirst
            rw [Value.find?, Value.child?_fill_of_sameChild hfirst hsame]
            rw [← Value.child?_of_sameChild hsame, hstep] at hchild
            cases hchild
            exact ih hrest hchange hbehind fun h => hcovers ⟨hsame, _, hstep, h⟩
          · refine ⟨items, ?_, .of_length_eq rfl⟩
            rw [Value.find?, Value.child?_fill_of_not_sameChild hfirst hsame, hchild]
            exact hbehind

/-! ## Many calls -/

/-- A call of `setField`. -/
structure SetCall where
  path : CompiledPath
  value : Value
  scope : Scope

namespace SetCall

def edited (call : SetCall) (document : Value) : Edited :=
  (Edit.setField call.value).apply document call.path call.scope

/-- A call spares what a route leads to if it puts nothing in its place or in that of a node on the
way. -/
def Spares (call : SetCall) (document : Value) (route : List Value) : Prop :=
  (call.edited document).outcome.isApplied = true →
    ¬ document.Covers (call.path.resolve call.scope document).resolvedKeys route

variable {call : SetCall} {document : Value} {route : List Value} {items : List Value}

/-- A call spares the container that it writes into. -/
theorem spares_container
    (hroute : (call.path.resolve call.scope document).parentKeys = route) :
    call.Spares document route := by
  intro happlied hcovers
  obtain ⟨key, hkey, -⟩ := setValue_applied happlied
  have hkeys : (call.path.resolve call.scope document).resolvedKeys = route ++ [key] :=
    hroute ▸ Path.resolvedKeys_eq_append hkey
  have hlength := hcovers.length_le
  rw [hkeys, List.length_append, List.length_singleton] at hlength
  omega

/-- One call adds the padding and a value at most to a list that it spares. -/
theorem list_grows (hfound : document.find? route = some (.array items))
    (hspares : call.Spares document route) :
    ∃ grown, (call.edited document).document.find? route = some (.array grown) ∧
      GrownFrom items grown 1 := by
  cases happlied : (call.edited document).outcome.isApplied with
  | false =>
      have hkeeps : (call.edited document).document = document := apply_keeps _ _ _ _ happlied
      rw [hkeeps]
      exact ⟨items, hfound, .of_length_eq rfl⟩
  | true =>
      obtain ⟨key, hkey, -⟩ := setValue_applied happlied
      obtain ⟨s, new, hslot, hedited, hchange⟩ := setValue_rewrites happlied
      have hkeys : (call.path.resolve call.scope document).resolvedKeys =
          (call.path.resolve call.scope document).parentKeys ++ [key] :=
        Path.resolvedKeys_eq_append hkey
      have hcovers := hspares happlied
      have hdocument : (call.edited document).document = s.fill new := hedited
      rw [hkeys] at hcovers
      rw [hkey] at hchange
      rw [hdocument]
      exact list_grows_of_change hslot hchange hfound hcovers

/-- The document after some calls. -/
def run (document : Value) : List SetCall → Value
  | [] => document
  | call :: calls => run (call.edited document).document calls

/-- Each call of a run spares what the route leads to in the document that it gets. -/
def RunSpares (document : Value) (route : List Value) : List SetCall → Prop
  | [] => True
  | call :: calls =>
      call.Spares document route ∧ RunSpares (call.edited document).document route calls

/-- Many calls add the padding and a value each, at most, to a list that they all spare. -/
theorem run_list_grows {calls : List SetCall} (hfound : document.find? route = some (.array items))
    (hspares : RunSpares document route calls) :
    ∃ grown, (run document calls).find? route = some (.array grown) ∧
      GrownFrom items grown calls.length := by
  -- on the calls, for every document and list: the second call gets what the first one left
  induction calls generalizing document items with
  | nil => exact ⟨items, hfound, .of_length_eq rfl⟩
  | cons call calls ih =>
      obtain ⟨next, hnext, hfirst⟩ := list_grows hfound hspares.1
      obtain ⟨grown, hgrown, hrest⟩ := ih hnext hspares.2
      exact ⟨grown, hgrown, hfirst.trans hrest⟩

end SetCall

/-! ## Positions -/

/-- **A list is written at just the position of the key, and grows within bounds.** Keys without a
position, and positions too far behind the end, are rejected. All positions are below `2 ^ 64`, and
so is the next one wherever something is written; a natural number is its own position, or the
greatest one if it has none. A call adds 1024 nulls and the value at most, so `n` calls that spare
the list add no more than `1025 * n` items. -/
theorem set_writes_at_position (document value : Value) (path : CompiledPath) (scope : Scope)
    {items : List Value}
    (hlist : (path.resolve scope document).container? = some (.array items)) :
    let r := path.resolve scope document
    let edited := (Edit.setField value).apply document path scope
    ((∀ i, r.lastKey.bind Value.index? = some i → items.length + 1024 < i) →
      edited.outcome = .rejected ⟨path.source, .invalidIndex r.lastKey items.length⟩ ∧
      edited.document = document) ∧
    (∀ key i, r.lastKey = some key → key.index? = some i → i ≤ items.length + 1024 →
      edited.outcome = (if i < items.length then .overwritten key else .created key) ∧
      ∃ new, ItemWritten i value items new ∧
        document.replace? r.parentKeys (.array new) = some edited.document) ∧
    (∀ (key : Value) i, key.index? = some i → i < UInt64.size ∧
      (∀ n : Nat, key.number? = some ↑n → i = min n (UInt64.size - 1)) ∧
      (items.length < 2 ^ 63 → i ≤ items.length + 1024 → i + 1 < UInt64.size)) ∧
    ∀ calls, SetCall.RunSpares document r.parentKeys calls →
      ∃ grown, (SetCall.run document calls).find? r.parentKeys = some (.array grown) ∧
        items.length ≤ grown.length ∧ grown.length ≤ items.length + 1025 * calls.length := by
  intro r edited
  obtain ⟨fill, hslot, hwrites, hrejects⟩ := setValue_of_array value hlist
  refine ⟨?_, ?_, ?_, ?_⟩
  · intro hinvalid
    have hedited : edited = rejected document path (.invalidIndex r.lastKey items.length) :=
      hrejects hinvalid
    rw [hedited]
    exact ⟨rfl, rfl⟩
  · intro key i hkey hi hle
    obtain ⟨new, hnew, hwritten⟩ := exists_itemWritten fill items key i value
    have hedited : edited = _ := (hwrites key i hkey hi hle).trans hwritten
    rw [hedited]
    exact ⟨rfl, new, hnew, Value.replace?_of_slot? hslot⟩
  · intro key i hi
    have hmax := Value.index?_le_maxIndex hi
    have hsize : UInt64.size = Value.maxIndex + 1 := by decide
    rw [hsize]
    refine ⟨Nat.lt_succ_of_le hmax, ?_, ?_⟩
    · intro n hn
      exact Option.some.inj (hi.symm.trans (Value.index?_of_number? hn))
    · intro hlength hle
      rw [Value.maxIndex_eq]
      omega
  · intro calls hspares
    exact SetCall.run_list_grows (Value.find?_of_slot? hslot) hspares

/-- A value is written two places behind the end of a list and, by another call, over the null in
front of it. -/
theorem set_writes_at_position_twice :
    let document := Value.object [("l", .array [.integer 1])]
    let path : CompiledPath := ⟨"l[$i]", [.name "l", .variable "i"]⟩
    let scope (n : Nat) := Scope.outermost [("i", .float (.ofNat n))]
    let calls : List SetCall := [⟨path, .boolean true, scope 3⟩, ⟨path, .boolean false, scope 2⟩]
    let edited := (Edit.setField (.boolean true)).apply document path (scope 3)
    ((path.resolve (scope 3) document).container? = some (.array [.integer 1])) ∧
    edited.outcome = .created (.float (.ofNat 3)) ∧
    (∃ new, ItemWritten 3 (.boolean true) [.integer 1] new ∧
      document.replace? [.string "l"] (.array new) = some edited.document) ∧
    SetCall.RunSpares document [.string "l"] calls ∧
    ∃ grown, (SetCall.run document calls).find? [.string "l"] = some (.array grown) ∧
      1 ≤ grown.length ∧ grown.length ≤ 1 + 1025 * 2 := by
  intro document path scope calls edited
  have hlist : (path.resolve (scope 3) document).container? = some (.array [.integer 1]) := rfl
  have hspares : SetCall.RunSpares document [.string "l"] calls :=
    ⟨SetCall.spares_container rfl, SetCall.spares_container rfl, trivial⟩
  have hindex : (Value.float (.ofNat 3)).index? = some 3 := by decide +kernel
  obtain ⟨-, hwritten, -, hgrowth⟩ :=
    set_writes_at_position document (.boolean true) path (scope 3) hlist
  obtain ⟨houtcome, hnew⟩ := hwritten (.float (.ofNat 3)) 3 rfl hindex (by decide)
  exact ⟨hlist, houtcome, hnew, hspares, hgrowth calls hspares⟩

end Edit

end DocPath
