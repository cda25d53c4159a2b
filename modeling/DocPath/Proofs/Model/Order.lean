import DocPath.Proofs.Edit.Applied
import DocPath.Proofs.Model.Methods
import DocPath.Proofs.Model.Transparency
import DocPath.Proofs.Value.Order

/-!
# Documents stay in order

Every edit leaves a document in order if the value that it writes is in order (`Edit.apply_ordered`), and so
does every run of calls on a model (`Model.run_calls_ordered`). A host may register methods that do other
things to a model; as long as each of them keeps documents in order, a registry does
(`Model.run_methods_ordered`). The registry itself lists its methods in order, and a cache its paths.
-/

namespace DocPath

/-! ## Edits -/

namespace Edit

/-- The value that is written is in order, if there is one. -/
def Ordered : Edit → Prop
  | .add value | .append value | .setField value => value.Ordered
  | .remove => True

variable {document value : Value} {path : CompiledPath} {scope : Scope}

theorem writeItem_ordered {fill : Value → Value} {items : List Value}
    (hslot : Slot.Ordered ⟨.array items, fill⟩) (hvalue : value.Ordered) (key : Value) (i : Nat) :
    (writeItem fill items key i value).document.Ordered := by
  have hitems := Value.ordered_array_iff.mp hslot.held
  unfold writeItem
  split
  · refine hslot.fill _ (.array fun v hv => ?_)
    rcases List.mem_or_eq_of_mem_set hv with hv | rfl
    · exact hitems v hv
    · exact hvalue
  · refine hslot.fill _ (.array fun v hv => ?_)
    rcases List.mem_append.mp hv with hv | hv
    · rcases List.mem_append.mp hv with hv | hv
      · exact hitems v hv
      · exact List.eq_of_mem_replicate hv ▸ .null
    · exact List.mem_singleton.mp hv ▸ hvalue

theorem without?_ordered {slot : Slot} {key new : Value} (hslot : slot.Ordered)
    (h : without? (some slot) key = some new) : new.Ordered := by
  obtain ⟨held, fill⟩ := slot
  rcases without?_eq_some h with ⟨items, i, rfl, -, -, rfl⟩ | ⟨fields, name, rfl, -, -, rfl⟩
  · refine hslot.fill _ (.array fun v hv => ?_)
    exact Value.ordered_array_iff.mp hslot.held v (List.mem_of_mem_eraseIdx hv)
  · exact hslot.fill _ (hslot.held.erase name)

theorem addValue_ordered (hdocument : document.Ordered) (hvalue : value.Ordered)
    (h : (addValue document path value scope).outcome.isApplied = true) :
    (addValue document path value scope).document.Ordered := by
  obtain ⟨fields, fill, name, hslot, -, heq⟩ := addValue_applied h
  have hslot := hdocument.slot? hslot
  rw [heq]
  exact hslot.fill _ (hslot.held.put name hvalue)

theorem appendValue_ordered (hdocument : document.Ordered) (hvalue : value.Ordered)
    (h : (appendValue document path value scope).outcome.isApplied = true) :
    (appendValue document path value scope).document.Ordered := by
  obtain ⟨items, fill, hslot, heq⟩ := appendValue_applied h
  have hslot := hdocument.slot? hslot
  rw [heq]
  refine hslot.fill _ (.array fun v hv => ?_)
  rcases List.mem_append.mp hv with hv | hv
  · exact Value.ordered_array_iff.mp hslot.held v hv
  · exact List.mem_singleton.mp hv ▸ hvalue

theorem setValue_ordered (hdocument : document.Ordered) (hvalue : value.Ordered)
    (h : (setValue document path value scope).outcome.isApplied = true) :
    (setValue document path value scope).document.Ordered := by
  obtain ⟨key, -, ⟨fields, fill, name, hslot, -, heq⟩ | ⟨items, fill, i, hslot, -, -, heq⟩⟩ :=
    setValue_applied h
  · have hslot := hdocument.slot? hslot
    rw [heq]
    exact hslot.fill _ (hslot.held.put name hvalue)
  · rw [heq]
    exact writeItem_ordered (hdocument.slot? hslot) hvalue key i

theorem removeValue_ordered (hdocument : document.Ordered)
    (h : (removeValue document path scope).outcome.isApplied = true) :
    (removeValue document path scope).document.Ordered := by
  obtain ⟨slot, key, new, hslot, -, hnew, heq⟩ := removeValue_applied h
  rw [heq]
  exact without?_ordered (hdocument.slot? hslot) hnew

/-- An edit leaves a document in order. -/
theorem apply_ordered {e : Edit} (he : e.Ordered) (hdocument : document.Ordered)
    (path : CompiledPath) (scope : Scope) : (e.apply document path scope).document.Ordered := by
  cases happlied : (e.apply document path scope).outcome.isApplied with
  | false =>
      rw [e.apply_keeps document path scope happlied]
      exact hdocument
  | true =>
      cases e with
      | add value => exact addValue_ordered hdocument he happlied
      | append value => exact appendValue_ordered hdocument he happlied
      | setField value => exact setValue_ordered hdocument he happlied
      | remove => exact removeValue_ordered hdocument happlied

end Edit

/-! ## Calls of a model -/

namespace Model

theorem edit_ordered {m : Model} {e : Edit} (hm : m.document.Ordered) (he : e.Ordered) (path : String)
    (bindings : Bindings) : (m.edit path e bindings).model.document.Ordered := by
  unfold edit
  split
  · exact Edit.apply_ordered he hm _ _
  · exact hm

/-- The value that a call writes is in order, if it writes one. -/
def Call.Ordered : Call → Prop
  | .edit _ e _ => e.Ordered
  | .lookup _ _ | .get _ _ => True

theorem call_ordered {m : Model} {c : Call} (hm : m.document.Ordered) (hc : c.Ordered) :
    (m.call c).model.document.Ordered := by
  cases c with
  | lookup path bindings | get path bindings => exact (m.lookup_document path bindings).symm ▸ hm
  | edit path e bindings => exact edit_ordered hm hc path bindings

/-- What each step keeps, a run keeps. -/
theorem run_keeps {ι α : Type} {P : Model → Prop} {step : Model → ι → ModelStep α} {steps : List ι}
    (hstep : ∀ i ∈ steps, ∀ m, P m → P (step m i).model) {m : Model} (hm : P m) :
    P (run step m steps).model := by
  induction steps generalizing m with
  | nil => exact hm
  | cons i rest ih =>
      obtain ⟨hfirst, hrest⟩ := List.forall_mem_cons.mp hstep
      exact ih hrest (hfirst m hm)

/-- A document that was read stays in order, whatever calls are made on its model. -/
theorem run_calls_ordered {text : String} {document : Value} (hread : Value.read text = some document)
    {calls : List Call} (hcalls : ∀ c ∈ calls, c.Ordered) :
    (run call (ofDocument document) calls).model.document.Ordered :=
  run_keeps (P := fun m => m.document.Ordered) (fun c hc _ hm => call_ordered hm (hcalls c hc))
    (Value.ordered_of_read hread)

end Model

/-! ## Methods -/

theorem Verb.Asks.ordered {v : Verb} {arguments : List Value} {c : Method.EditCall}
    (h : v.Asks arguments c) (harguments : ∀ a ∈ arguments, a.Ordered) : c.edit.Ordered := by
  have hedit := h.edit
  cases v with
  | remove => exact Option.some.inj hedit ▸ trivial
  | add | append | setField =>
      obtain ⟨value, hvalue, heq⟩ := Option.map_eq_some_iff.mp hedit
      exact heq ▸ harguments value (List.mem_of_getElem? hvalue)

namespace Method

/-- A method that leaves documents in order, given arguments in order. -/
def KeepsOrder (method : Method) : Prop :=
  ∀ (m : Model) (arguments : List Value), m.document.Ordered → (∀ v ∈ arguments, v.Ordered) →
    (method m arguments).model.document.Ordered

theorem ofCall_keepsOrder {call : List Value → Except MethodError EditCall}
    (hcall : ∀ arguments c, (∀ v ∈ arguments, v.Ordered) → call arguments = .ok c → c.edit.Ordered) :
    (ofCall call).KeepsOrder := by
  intro m arguments hm harguments
  unfold ofCall
  split
  · exact hm
  · rename_i c hc
    exact Model.edit_ordered hm (hcall arguments c harguments hc) c.path c.bindings

/-- The value among the arguments is all that the edit of a verb writes. -/
theorem ofCall_verb_keepsOrder (v : Verb) : (ofCall v.call).KeepsOrder := by
  refine ofCall_keepsOrder fun arguments c harguments hc => ?_
  rcases v.refuses_or_asks arguments with ⟨e, he⟩ | ⟨asked, hasked⟩
  · rw [Verb.call_of_refuses he] at hc
    cases hc
  · rw [Verb.call_of_asks hasked] at hc
    cases hc
    exact hasked.ordered harguments

/-! A method need not be an edit for this. -/

theorem constant_keepsOrder (v : Value) : (constant v).KeepsOrder := fun _ _ hm _ => hm

theorem failing_keepsOrder (method message : String) : (failing method message).KeepsOrder :=
  fun _ _ hm _ => hm

theorem argumentCount_keepsOrder : argumentCount.KeepsOrder := fun _ _ hm _ => hm

theorem appendingTo_keepsOrder (path : String) : (appendingTo path).KeepsOrder := by
  refine ofCall_keepsOrder fun arguments c harguments hc => ?_
  cases hc
  cases arguments with
  | nil => exact .null
  | cons v rest => exact harguments v List.mem_cons_self

theorem reset_keepsOrder : reset.KeepsOrder := fun _ _ _ _ => Value.ordered_emptyObject

end Method

/-! ## Registries -/

namespace Registry

variable {r : Registry}

/-- All methods keep documents in order. -/
def KeepsOrder (r : Registry) : Prop :=
  r.methods.All Method.KeepsOrder

theorem standard_keepsOrder : standard.KeepsOrder := by
  have hnone : Fields.All Method.KeepsOrder [] := fun _ hentry => absurd hentry List.not_mem_nil
  refine hnone.putAll ?_
  rintro entry (_ | ⟨_, _ | ⟨_, _ | ⟨_, _ | ⟨_, hentry⟩⟩⟩⟩)
  · exact Method.ofCall_verb_keepsOrder .add
  · exact Method.ofCall_verb_keepsOrder .append
  · exact Method.ofCall_verb_keepsOrder .setField
  · exact Method.ofCall_verb_keepsOrder .remove
  · cases hentry

theorem methods_registerAll (r : Registry) (methods : List (String × Method)) :
    (r.registerAll methods).methods =
      methods.foldl (fun fields entry => fields.put entry.1 entry.2) r.methods := by
  induction methods generalizing r with
  | nil => rfl
  | cons entry rest ih => exact ih _

theorem KeepsOrder.registerAll (h : r.KeepsOrder) {methods : List (String × Method)}
    (hmethods : ∀ entry ∈ methods, Method.KeepsOrder entry.2) : (r.registerAll methods).KeepsOrder := by
  rw [KeepsOrder, methods_registerAll]
  exact Fields.All.putAll h hmethods

theorem registerAll_ordered (h : r.methods.Ordered) (methods : List (String × Method)) :
    (r.registerAll methods).methods.Ordered := by
  rw [methods_registerAll]
  exact h.putAll methods

/-- Whatever a host registers beside the standard methods, the names are listed in ascending order. -/
theorem standard_names_pairwise (others : List (String × Method)) :
    (standard.registerAll others).names.Pairwise (· < ·) :=
  registerAll_ordered (Fields.ordered_ofList _) others

theorem call_ordered (h : r.KeepsOrder) {m : Model} (hm : m.document.Ordered) (name : String)
    {arguments : List Value} (harguments : ∀ v ∈ arguments, v.Ordered) :
    (r.call m name arguments).model.document.Ordered := by
  unfold call
  split
  · rename_i method hmethod
    exact h.get? hmethod m arguments hm harguments
  · exact hm

end Registry

/-- A document that was read stays in order in a run of calls by name, if the methods that the host
registered beside the standard ones keep documents in order. -/
theorem Model.run_methods_ordered {text : String} {document : Value}
    (hread : Value.read text = some document) {others : List (String × Method)}
    (hothers : ∀ entry ∈ others, Method.KeepsOrder entry.2) {calls : List (String × List Value)}
    (hcalls : ∀ c ∈ calls, ∀ v ∈ c.2, v.Ordered) :
    (run (fun m c => (Registry.standard.registerAll others).call m c.1 c.2) (ofDocument document)
      calls).model.document.Ordered :=
  run_keeps (P := fun m => m.document.Ordered)
    (fun c hc _ hm =>
      Registry.call_ordered (Registry.standard_keepsOrder.registerAll hothers) hm c.1 (hcalls c hc))
    (Value.ordered_of_read hread)

/-! ## Caches -/

namespace PathCache

theorem compile_ordered {c : PathCache} (h : c.entries.Ordered) (source : String) :
    (c.compile source).2.1.entries.Ordered := by
  unfold compile
  split
  · exact h
  · dsimp only
    split
    · exact h.put source _
    · exact h

/-- A cache lists each of its texts once. -/
theorem Reachable.ordered {c : PathCache} (h : c.Reachable) : c.entries.Ordered := by
  induction h with
  | empty => exact Fields.ordered_nil
  | compile _ source ih => exact compile_ordered ih source
  | clear _ _ => exact Fields.ordered_nil
  | @call c _ document call ih =>
      rw [Model.call_cache]
      exact compile_ordered ih call.path

end PathCache

end DocPath
