import DocPath.Proofs.Edit.Descent
import DocPath.Proofs.Edit.Repetition
import DocPath.Proofs.Model.Transparency
import DocPath.Proofs.Path.Joining

/-!
# Removals that undo

A field that was made by `add` is removed by the same path (`Edit.remove_created`), and a value that was
appended to a list is its last item, which the same path with the index -1 behind it removes
(`Edit.remove_appended`). Either way the document is again what it was, down to the order of the
entries. On a model, the path of the second removal is the text of the first one with `[-1]` behind it
(`Model.remove_undoes`).
-/

namespace DocPath

/-! ## The last item of a path -/

/-- The step to the last item of a list, for a removal. -/
def Segment.lastItem : Segment :=
  .index (.int (-1))

theorem Path.IsFlat.append {path more : Path} (h : path.IsFlat) (hmore : more.IsFlat) :
    Path.IsFlat (path ++ more) := by
  intro sub hsub
  rcases List.mem_append.mp hsub with hpath | hbehind
  · exact h sub hpath
  · exact hmore sub hbehind

theorem Path.isFlat_lastItem : Path.IsFlat [Segment.lastItem] := by
  intro sub hsub
  rw [List.mem_singleton] at hsub
  cases hsub

/-- The index -1 in brackets is read behind every path. -/
theorem Path.parse_append_lastItem {t : String} {path : Path} (h : Path.parse t = .ok path) :
    Path.parse (t ++ "[-1]") = .ok (path ++ [Segment.lastItem]) := by
  have htokens : (Lexer.ofText "-1").tokens = .ok [.integer (-1)] := by decide +kernel
  have htext : t ++ "[" ++ "-1" ++ "]" = t ++ "[-1]" := by
    rw [String.append_assoc, String.append_assoc]
    rfl
  rw [← htext]
  exact Path.parse_append_brackets h htokens (.integer (-1))

namespace Edit

variable {document value : Value} {path : CompiledPath} {scope : Scope}

/-! ## Removing a new field -/

theorem writeField_created {fill : Value → Value} {fields : Fields Value} {name : String}
    {key : Value} (h : (writeField fill fields name value).outcome = .created key) :
    fields.has name = false := by
  cases hhas : fields.has name with
  | false => rfl
  | true =>
      simp only [writeField, hhas, if_true] at h
      cases h

/-- A field that was made is removed by the same path, and nothing is left of it. -/
theorem remove_created (hflat : path.path.IsFlat) {key : Value}
    (h : (addValue document path value scope).outcome = .created key) :
    ∃ last, removeValue (addValue document path value scope).document path scope =
      ⟨.removed last, document, []⟩ := by
  have happlied : (addValue document path value scope).outcome.isApplied = true := by
    rw [h]
    rfl
  have hok := (addValue_writesChild happlied).ok
  obtain ⟨fields, fill, name, hslot, hlast, hadd⟩ := addValue_applied happlied
  obtain ⟨last, hkey, hname⟩ := Option.bind_eq_some_iff.mp hlast
  rw [hadd] at h ⊢
  obtain ⟨hcontainer', hkey', hslot'⟩ :=
    hflat.resolve_filled hok hkey hslot (.object (Fields.put fields name value))
  obtain ⟨fill', hslot'', hremove⟩ :=
    removeValue_of_field hcontainer' hkey' hname (Fields.has_put_self fields name value)
  cases hslot'.symm.trans hslot''
  refine ⟨last, hremove.trans ?_⟩
  rw [Fields.erase_put (writeField_created h), Value.fill_held hslot]

/-! ## Removing what was appended -/

/-- The index -1 takes the last item out of a list. -/
theorem remove_lastItem (items : List Value) (value : Value) (source : String) (scope : Scope) :
    Edit.remove.apply (.array (items ++ [value])) ⟨source, [Segment.lastItem]⟩ scope =
      ⟨.removed (.integer (-1)), .array items, []⟩ := by
  let r := CompiledPath.resolve ⟨source, [Segment.lastItem]⟩ scope (.array (items ++ [value]))
  have hresolve : r = _ := Path.resolve_singleton Segment.lastItem scope _
  have hcontainer : r.container? = some (.array (items ++ [value])) := by
    rw [hresolve]
    rfl
  have hkey : r.lastKey = some (.integer (-1)) := by
    simp only [hresolve, Segment.lastItem, Segment.keyIn, Key.toValue]
  have hparent : r.parentKeys = [] := by
    rw [hresolve]
    rfl
  obtain ⟨fill, hslot, hremove⟩ := removeValue_of_array hcontainer hkey
  rw [show CompiledPath.resolve _ scope _ = r from rfl, hparent] at hslot
  cases hslot
  have hlength : (items ++ [value]).length = items.length + 1 := by
    rw [List.length_append, List.length_singleton]
  have hindex : removalIndex? (.integer (-1)) (items.length + 1) = some items.length := rfl
  have herase : (items ++ [value]).eraseIdx items.length = items := by
    rw [eraseIdx_append_cons, List.append_nil]
  simp only [hlength, hindex, Nat.lt_succ_self, if_true, herase] at hremove
  exact hremove

/-- A list that the empty path leads to is the document. -/
theorem append_here {source : String}
    (h : ((Edit.append value).apply document ⟨source, []⟩ scope).outcome.isApplied = true) :
    ∃ items, document = .array items ∧
      ((Edit.append value).apply document ⟨source, []⟩ scope).document =
        .array (items ++ [value]) := by
  obtain ⟨items, fill, hslot, happend⟩ := appendValue_applied h
  have hkeys : (CompiledPath.resolve ⟨source, []⟩ scope document).resolvedKeys = [] := by
    simp only [CompiledPath.resolve, Path.resolve, Walk.along, Walk.start]
  rw [hkeys] at hslot
  cases hslot
  exact ⟨items, rfl, congrArg Edited.document happend⟩

/-- **What was appended is removed** by the path of the list with the index -1 behind it. -/
theorem remove_appended (source source' : String) {path : Path} (hflat : path.IsFlat)
    (h : ((Edit.append value).apply document ⟨source, path⟩ scope).outcome.isApplied = true) :
    Edit.remove.apply ((Edit.append value).apply document ⟨source, path⟩ scope).document
      ⟨source', path ++ [Segment.lastItem]⟩ scope = ⟨.removed (.integer (-1)), document, []⟩ := by
  -- on the path: up to the list, both edits are edits of the same child
  induction path generalizing document with
  | nil =>
      obtain ⟨items, rfl, happend⟩ := append_here h
      rw [happend]
      exact remove_lastItem items value source' scope
  | cons segment rest ih =>
      have hbehind : (Edit.append value).IsBehind rest := trivial
      cases hs : document.childSlot? (segment.keyIn scope document) with
      | none =>
          have hchild := Value.child?_of_childSlot?_eq_none hs
          rw [apply_cons_lost (.append value) source hbehind hchild, lost_isApplied] at h
          cases h
      | some s =>
          rw [apply_cons (.append value) source hflat hbehind hs] at h ⊢
          let inner := (Edit.append value).apply s.held ⟨source, rest⟩ scope
          have hremoved : Edit.remove.apply inner.document ⟨source', rest ++ [Segment.lastItem]⟩
              scope = ⟨.removed (.integer (-1)), s.held, []⟩ := ih hflat.tail h
          have hlast : Path.IsFlat (segment :: (rest ++ [Segment.lastItem])) :=
            hflat.append Path.isFlat_lastItem
          have hkey : segment.keyIn scope (s.fill inner.document) = segment.keyIn scope document :=
            hflat.keyIn_eq scope _ _
          have hslot : (s.fill inner.document).childSlot?
              (segment.keyIn scope (s.fill inner.document)) = some ⟨inner.document, s.fill⟩ := by
            rw [hkey]
            exact Value.childSlot?_fill hs inner.document
          have hremove := apply_cons .remove source' hlast
            (isBehind_of_ne_nil (List.append_ne_nil_of_right_ne_nil rest (List.cons_ne_nil _ _))
              .remove) hslot
          rw [hremoved] at hremove
          rw [← Value.fill_held_of_childSlot? hs]
          exact hremove

end Edit

/-! ## Models -/

namespace Model

variable {m : Model}

theorem edit_of_parsed (hm : m.cache.Reachable) {t : String} {path : Path}
    (ht : Path.parse t = .ok path) (e : Edit) (bindings : Bindings) :
    (m.edit t e bindings).result =
        .ok (e.apply m.document ⟨t, path⟩ (.outermost bindings)).outcome ∧
      (m.edit t e bindings).model.document =
        (e.apply m.document ⟨t, path⟩ (.outermost bindings)).document := by
  rw [edit_of_compiled hm.sound (CompiledPath.compile_of_parse ht)]
  exact ⟨rfl, rfl⟩

theorem edit_reachable (hm : m.cache.Reachable) (t : String) (e : Edit) (bindings : Bindings) :
    (m.edit t e bindings).model.cache.Reachable :=
  hm.call m.document (.edit t e bindings)

/-- Two edits in a row, with the same bindings: the second one is done in the document that the first one
leaves. -/
theorem edit_edit_of_parsed (hm : m.cache.Reachable) {t t' : String} {path path' : Path}
    (ht : Path.parse t = .ok path) (ht' : Path.parse t' = .ok path') (e e' : Edit)
    (bindings : Bindings) :
    let first := m.edit t e bindings
    let second := first.model.edit t' e' bindings
    let edited := e.apply m.document ⟨t, path⟩ (.outermost bindings)
    let edited' := e'.apply edited.document ⟨t', path'⟩ (.outermost bindings)
    first.result = .ok edited.outcome ∧ second.result = .ok edited'.outcome ∧
      second.model.document = edited'.document := by
  intro first second edited edited'
  obtain ⟨hresult, hdocument⟩ := edit_of_parsed hm ht e bindings
  obtain ⟨hresult', hdocument'⟩ := edit_of_parsed (edit_reachable hm t e bindings) ht' e' bindings
  rw [hdocument] at hresult' hdocument'
  exact ⟨hresult, hresult', hdocument'⟩

/-- **A removal undoes an `add` that made a field, and an `append`.** Both are edits of a model with a
cache of any history, by a text that is parsed as a flat path. The field is removed by the same text, the
appended value by this text with `[-1]` behind it, with the same bindings, and the document is what it
was. -/
theorem remove_undoes (hm : m.cache.Reachable) {t : String} {path : Path}
    (ht : Path.parse t = .ok path) (hflat : path.IsFlat) (value : Value) (bindings : Bindings) :
    (let added := m.edit t (.add value) bindings
     let removed := added.model.edit t .remove bindings
     (∃ key, added.result = .ok (.created key)) →
      (∃ key, removed.result = .ok (.removed key)) ∧ removed.model.document = m.document) ∧
    (let appended := m.edit t (.append value) bindings
     let removed := appended.model.edit (t ++ "[-1]") .remove bindings
     (∃ outcome, appended.result = .ok outcome ∧ outcome.isApplied = true) →
      (∃ key, removed.result = .ok (.removed key)) ∧ removed.model.document = m.document) := by
  have hlast : Path.parse (t ++ "[-1]") = .ok (path ++ [Segment.lastItem]) :=
    Path.parse_append_lastItem ht
  constructor
  · intro added removed
    rintro ⟨key, hcreated⟩
    obtain ⟨hresult, hresult', hdocument'⟩ :=
      edit_edit_of_parsed hm ht ht (.add value) .remove bindings
    have houtcome := Except.ok.inj (hresult.symm.trans hcreated)
    obtain ⟨last, hremove⟩ := Edit.remove_created hflat houtcome
    exact ⟨⟨last, hresult'.trans (congrArg Except.ok (congrArg Edited.outcome hremove))⟩,
      hdocument'.trans (congrArg Edited.document hremove)⟩
  · intro appended removed
    rintro ⟨outcome, happended, happlied⟩
    obtain ⟨hresult, hresult', hdocument'⟩ :=
      edit_edit_of_parsed hm ht hlast (.append value) .remove bindings
    obtain rfl := Except.ok.inj (hresult.symm.trans happended)
    have hremove := Edit.remove_appended t (t ++ "[-1]") hflat happlied
    exact ⟨⟨_, hresult'.trans (congrArg Except.ok (congrArg Edited.outcome hremove))⟩,
      hdocument'.trans (congrArg Edited.document hremove)⟩

/-- A field between two others, in an item that is found by the string "0", and a value that is appended
by a text with a blank at its end. -/
theorem remove_undoes_between :
    let document := Value.object
      [("l", .array [.object [("a", .integer 1), ("c", .array [.null])]])]
    let m := ofDocument document
    let bindings : Bindings := [("i", .string "0")]
    let added := m.edit "l[$i].b" (.add .null) bindings
    let appended := m.edit "l[$i].c " (.append .null) bindings
    let removed := added.model.edit "l[$i].b" .remove bindings
    let removed' := appended.model.edit "l[$i].c [-1]" .remove bindings
    (added.result = .ok (.created (.string "b")) ∧ (∃ key, removed.result = .ok (.removed key)) ∧
      removed.model.document = document) ∧
    (appended.result = .ok (.appended 1) ∧ (∃ key, removed'.result = .ok (.removed key)) ∧
      removed'.model.document = document) := by
  intro document m bindings added appended removed removed'
  have hm : m.cache.Reachable := .empty
  have hflat (name : String) :
      Path.IsFlat [.name "l", .variable "i", .name name] := by
    intro sub hsub
    simp at hsub
  have hb : Path.parse "l[$i].b" = .ok [.name "l", .variable "i", .name "b"] := by decide +kernel
  have hc : Path.parse "l[$i].c " = .ok [.name "l", .variable "i", .name "c"] := by decide +kernel
  have hadd : ((Edit.add .null).apply document
      ⟨"l[$i].b", [.name "l", .variable "i", .name "b"]⟩ (.outermost bindings)).outcome =
        .created (.string "b") := by rfl
  have happend : ((Edit.append .null).apply document
      ⟨"l[$i].c ", [.name "l", .variable "i", .name "c"]⟩ (.outermost bindings)).outcome =
        .appended 1 := by rfl
  have hcreated : added.result = .ok (.created (.string "b")) :=
    (edit_of_parsed hm hb (.add .null) bindings).1.trans (congrArg Except.ok hadd)
  have happended : appended.result = .ok (.appended 1) :=
    (edit_of_parsed hm hc (.append .null) bindings).1.trans (congrArg Except.ok happend)
  have hundone := (remove_undoes hm hb (hflat "b") .null bindings).1 ⟨_, hcreated⟩
  have hundone' := (remove_undoes hm hc (hflat "c") .null bindings).2 ⟨_, happended, rfl⟩
  exact ⟨⟨hcreated, hundone⟩, ⟨happended, hundone'⟩⟩

end Model

end DocPath
