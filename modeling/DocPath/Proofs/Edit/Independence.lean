import DocPath.Proofs.Edit.Decision
import DocPath.Proofs.Edit.Descent
import DocPath.Proofs.Path.Literal

/-!
# Independent edits

An edit whose path begins with a literal key looks at no child of the document but the one under this
key, and changes no other (`Edit.actsOn_apply`). What it does there depends on this child and on the kind
of the document, and neither is changed by an edit of another child. So two edits that act on different
children can be done in either order (`ActsOn.orderFree`). If two paths go on to the same child, as by
the integer 0 and the string "0", they are two edits of this child, and the first step where the names
differ is further on (`Edit.independent_edits_commute`).
-/

namespace DocPath

/-! ## Containers with one other child -/

namespace Value

/-- A container with another value under a key. A field may be new, an item is there already. -/
def withChild (v key w : Value) : Value :=
  match v, key.fieldName?, key.index? with
  | .object fields, some name, _ => .object (Fields.put fields name w)
  | .array items, _, some i => .array (items.set i w)
  | v, _, _ => v

/-- A container after a change of the child under a key, if there is a change. -/
def changed (v key : Value) : Option Value → Value
  | none => v
  | some w => v.withChild key w

theorem fill_eq_withChild {v key : Value} {s : Slot} (h : v.childSlot? key = some s) (w : Value) :
    s.fill w = v.withChild key w := by
  rcases childSlot?_cases h with ⟨fields, name, rfl, hname, hheld, hfill⟩ |
    ⟨items, i, rfl, hi, -, hfill⟩
  · have hhas : Fields.has fields name = true := Option.isSome_of_eq_some hheld
    simp only [hfill, withChild, hname, Fields.put_of_has hhas]
  · simp only [hfill, withChild, hi]

/-- Two values of one kind: both objects, both lists, or the same. -/
inductive SameKind : Value → Value → Prop where
  | objects (fields fields' : Fields Value) : SameKind (.object fields) (.object fields')
  | lists (items items' : List Value) : SameKind (.array items) (.array items')
  | same (v : Value) : SameKind v v

theorem SameKind.object {fields : Fields Value} {w : Value} (h : SameKind (.object fields) w) :
    ∃ fields', w = .object fields' := by
  cases h with
  | objects _ fields' => exact ⟨fields', rfl⟩
  | same _ => exact ⟨fields, rfl⟩

/-- All that is looked at by an edit that goes to the child under a key. -/
structure AlikeAt (key v w : Value) : Prop where
  kind : SameKind v w
  child : v.child? key = w.child? key

theorem AlikeAt.refl (key v : Value) : AlikeAt key v v := ⟨.same v, rfl⟩

variable {k l : Value}

theorem Apart.symm (h : k.Apart l) : l.Apart k :=
  ⟨h.field.symm, fun i hl hk => h.item i hk hl⟩

theorem Apart.name_ne (h : k.Apart l) {name other : String} (hk : k.fieldName? = some name)
    (hl : l.fieldName? = some other) : name ≠ other := by
  rintro rfl
  exact h.field (hk.trans hl.symm)

theorem Apart.index_ne (h : k.Apart l) {i j : Nat} (hk : k.index? = some i)
    (hl : l.index? = some j) : i ≠ j := by
  rintro rfl
  exact h.item i hk hl

theorem alikeAt_withChild (h : k.Apart l) (v w : Value) : AlikeAt l v (v.withChild k w) := by
  cases v with
  | object fields =>
      cases hk : k.fieldName? with
      | none => simpa only [withChild, hk] using AlikeAt.refl l _
      | some name =>
          simp only [withChild, hk]
          refine ⟨.objects _ _, ?_⟩
          cases hl : l.fieldName? with
          | none => simp only [child?, hl, Option.bind_none]
          | some other =>
              have hne : other ≠ name := (h.name_ne hk hl).symm
              simp only [child?, hl, Option.bind_some, Fields.get?_put, if_neg hne]
  | array items =>
      cases hk : k.index? with
      | none => simpa only [withChild, hk] using AlikeAt.refl l _
      | some i =>
          simp only [withChild, hk]
          refine ⟨.lists _ _, ?_⟩
          cases hl : l.index? with
          | none => simp only [child?, hl, Option.bind_none]
          | some j =>
              have hne : i ≠ j := h.index_ne hk hl
              simp only [child?, hl, Option.bind_some, List.getElem?_set_ne hne]
  | _ => exact AlikeAt.refl l _

theorem alikeAt_changed (h : k.Apart l) (v : Value) (change : Option Value) :
    AlikeAt l v (v.changed k change) := by
  cases change with
  | none => exact AlikeAt.refl l v
  | some w => exact alikeAt_withChild h v w

theorem withChild_comm (h : k.Apart l) (v a b : Value) :
    (v.withChild k a).withChild l b = (v.withChild l b).withChild k a := by
  cases v with
  | object fields =>
      cases hk : k.fieldName? with
      | none => cases hl : l.fieldName? <;> simp only [withChild, hk, hl]
      | some name =>
          cases hl : l.fieldName? with
          | none => simp only [withChild, hk, hl]
          | some other =>
              have hne : name ≠ other := h.name_ne hk hl
              simp only [withChild, hk, hl, Fields.put_comm hne]
  | array items =>
      cases hk : k.index? with
      | none => cases hl : l.index? <;> simp only [withChild, hk, hl]
      | some i =>
          cases hl : l.index? with
          | none => simp only [withChild, hk, hl]
          | some j =>
              have hne : i ≠ j := h.index_ne hk hl
              simp only [withChild, hk, hl, List.set_comm a b hne]
  | _ => rfl

theorem changed_comm (h : k.Apart l) (v : Value) (c d : Option Value) :
    (v.changed k c).changed l d = (v.changed l d).changed k c := by
  cases c with
  | none => rfl
  | some a =>
      cases d with
      | none => rfl
      | some b => exact withChild_comm h v a b

end Value

/-! ## Actions on one child -/

/-- What an action does to a value is told by its kind and by the child under a key, and the child is
all that it changes. -/
def ActsOn (key : Value) (f : Value → Edited) : Prop :=
  ∀ v, ∃ outcome change, ∀ w, Value.AlikeAt key v w →
    (f w).outcome = outcome ∧ (f w).document = w.changed key change

/-- Two actions on a value can be done in either order: what they leave is the same, and each has the
outcome that it has alone. -/
structure OrderFree (f g : Value → Edited) (v : Value) : Prop where
  document : (g (f v).document).document = (f (g v).document).document
  first : (f (g v).document).outcome = (f v).outcome
  second : (g (f v).document).outcome = (g v).outcome

theorem ActsOn.orderFree {k l : Value} {f g : Value → Edited} (hf : ActsOn k f) (hg : ActsOn l g)
    (hapart : k.Apart l) (v : Value) : OrderFree f g v := by
  obtain ⟨o, c, hf⟩ := hf v
  obtain ⟨o', d, hg⟩ := hg v
  obtain ⟨hfo, hfv⟩ := hf v (.refl k v)
  obtain ⟨hgo, hgv⟩ := hg v (.refl l v)
  -- neither of them changes what the other one looks at
  obtain ⟨hfo', hfg⟩ := hf (g v).document (hgv ▸ Value.alikeAt_changed hapart.symm v d)
  obtain ⟨hgo', hgf⟩ := hg (f v).document (hfv ▸ Value.alikeAt_changed hapart v c)
  refine ⟨?_, hfo'.trans hfo.symm, hgo'.trans hgo.symm⟩
  rw [hgf, hfg, hfv, hgv]
  exact Value.changed_comm hapart v c d

/-- Two actions that leave a value as it is are not seen by each other. -/
theorem OrderFree.of_kept {f g : Value → Edited} {v : Value} (hf : (f v).document = v)
    (hg : (g v).document = v) : OrderFree f g v where
  document := by rw [hf, hg, hf]
  first := by rw [hg]
  second := by rw [hf]

/-- Actions that put an edited child back in its place can be done in either order if they can in the
child. -/
theorem OrderFree.within {f g f' g' : Value → Edited} {v : Value} {s : Slot}
    (hv : s.fill s.held = v) (hf : ∀ w, f (s.fill w) = (f' w).within s.fill)
    (hg : ∀ w, g (s.fill w) = (g' w).within s.fill) (h : OrderFree f' g' s.held) :
    OrderFree f g v := by
  subst hv
  have hfirst : (f (s.fill s.held)).document = s.fill (f' s.held).document := by rw [hf]; rfl
  have hsecond : (g (s.fill s.held)).document = s.fill (g' s.held).document := by rw [hg]; rfl
  constructor
  · rw [hfirst, hsecond, hf, hg]
    exact congrArg s.fill h.document
  · rw [hsecond, hf, hf]
    exact h.first
  · rw [hfirst, hg, hg]
    exact h.second

/-! ## Edits as actions -/

namespace Edit

variable {segment : Segment} {rest : Path} {key : Value}

/-- Behind the first step, an edit acts on the child that this step leads to. -/
theorem actsOn_behind (e : Edit) (source : String) (scope : Scope)
    (hflat : Path.IsFlat (segment :: rest)) (hbehind : e.IsBehind rest)
    (hkey : ∀ v, segment.keyIn scope v = key) :
    ActsOn key fun v => e.apply v ⟨source, segment :: rest⟩ scope := by
  intro v
  cases hchild : v.child? key with
  | none =>
      refine ⟨(e.lost v ⟨source, segment :: rest⟩ key).outcome, none, fun w halike => ?_⟩
      have hnone : w.child? (segment.keyIn scope w) = none := by
        rw [hkey, ← halike.child, hchild]
      simp only [apply_cons_lost e source hbehind hnone, hkey]
      exact ⟨e.lost_outcome_congr w v _ key, e.lost_document w _ key⟩
  | some child =>
      let inner := e.apply child ⟨source, rest⟩ scope
      refine ⟨inner.outcome, some inner.document, fun w halike => ?_⟩
      obtain ⟨s, hs, hheld⟩ :=
        Value.exists_childSlot?_of_child? (halike.child.symm.trans hchild)
      have hslot : w.childSlot? (segment.keyIn scope w) = some s := by rw [hkey, hs]
      simp only [apply_cons e source hflat hbehind hslot, hheld]
      exact ⟨rfl, Value.fill_eq_withChild hs inner.document⟩

/-- An added field is checked by the kind of the container and by the last key. -/
theorem addTarget_congr {r r' : Resolution} {v w : Value} (hkind : Value.SameKind v w)
    (hv : r.container? = some v) (hw : r'.container? = some w) (hkey : r.lastKey = r'.lastKey) :
    addTarget r = addTarget r' := by
  cases hkind <;> simp only [addTarget, hv, hw, hkey]

/-- With no step behind the first one, a field is added to the value itself. -/
theorem actsOn_add_last (value : Value) (source : String) (scope : Scope) {name : String}
    (hkey : ∀ v, segment.keyIn scope v = key) (hname : key.fieldName? = some name) :
    ActsOn key fun v => (Edit.add value).apply v ⟨source, [segment]⟩ scope := by
  let r (v : Value) := CompiledPath.resolve ⟨source, [segment]⟩ scope v
  have hr (v : Value) : r v = ⟨true, v.child? key, v, some key, [segment], [key]⟩ := by
    show Path.resolve [segment] scope v = _
    rw [Path.resolve_singleton, hkey]
  have hcontainer (v : Value) : (r v).container? = some v := by
    rw [hr]
    rfl
  have hlast (v : Value) : (r v).lastKey = some key := by rw [hr]
  intro v
  have hsame (w : Value) (halike : Value.AlikeAt key v w) : addTarget (r w) = addTarget (r v) :=
    (addTarget_congr halike.kind (hcontainer v) (hcontainer w) (by rw [hlast, hlast])).symm
  cases htarget : addTarget (r v) with
  | error fault =>
      refine ⟨.rejected ⟨source, fault⟩, none, fun w halike => ?_⟩
      have hadd : addValue w ⟨source, [segment]⟩ value scope =
          rejected w ⟨source, [segment]⟩ fault :=
        addValue_of_fault ((hsame w halike).trans htarget)
      simp only [apply, hadd]
      exact ⟨rfl, rfl⟩
  | ok target =>
      obtain ⟨fields, hobject, hfound⟩ := addTarget_eq_ok htarget
      rw [hlast, Option.bind_some, hname] at hfound
      obtain rfl : name = target := Option.some.inj hfound
      obtain rfl : v = .object fields := Option.some.inj ((hcontainer v).symm.trans hobject)
      refine ⟨if Fields.has fields name then .overwritten (.string name) else
        .created (.string name), some value, fun w halike => ?_⟩
      obtain ⟨fields', rfl⟩ := halike.kind.object
      have hhas : Fields.has fields' name = Fields.has fields name := by
        have hchild := halike.child
        rw [Value.child?_object hname, Value.child?_object hname] at hchild
        exact congrArg Option.isSome hchild.symm
      have hadd : addValue (.object fields') ⟨source, [segment]⟩ value scope =
          writeField id fields' name value := by
        have hslot : Value.slot? (.object fields') (r (.object fields')).parentKeys =
            some ⟨.object fields', id⟩ := by rw [hr]; rfl
        have hok := (hsame _ halike).trans htarget
        simp only [r] at hok hslot
        simp only [addValue, hok, hslot, addIn]
      simp only [apply, hadd, writeField, hhas, Value.changed, Value.withChild, hname, id_eq,
        and_self]

/-- An add or an append acts on the child under the first key of a literal path. -/
theorem actsOn_apply (e : Edit) (value : Value) (he : e = .add value ∨ e = .append value)
    (source : String) (scope : Scope) (hpath : Path.IsLiteral (segment :: rest)) {k : Key}
    (hk : segment.literal? = some k) :
    ActsOn k.toValue fun v => e.apply v ⟨source, segment :: rest⟩ scope := by
  have hkey := Segment.keyIn_of_literal hk scope
  by_cases hrest : rest = []
  · subst hrest
    rcases he with rfl | rfl
    · exact actsOn_add_last value source scope hkey k.fieldName?_toValue
    · exact actsOn_behind _ source scope hpath.isFlat trivial hkey
  · exact actsOn_behind e source scope hpath.isFlat (isBehind_of_ne_nil hrest e) hkey

/-! ## Paths that part -/

variable {e e' : Edit}

/-- Behind two steps with one name, two edits can be done in either order if they can in the child that
these steps lead to. -/
theorem orderFree_cons {a b : Segment} {p q : Path} (source source' : String) (scope scope' : Scope)
    (hp : Path.IsLiteral (a :: p)) (hq : Path.IsLiteral (b :: q)) (hname : a.fieldName? = b.fieldName?)
    (hbehind : e.IsBehind p) (hbehind' : e'.IsBehind q) (document : Value)
    (hchild : ∀ child, OrderFree (fun v => e.apply v ⟨source, p⟩ scope)
      (fun v => e'.apply v ⟨source', q⟩ scope') child) :
    OrderFree (fun v => e.apply v ⟨source, a :: p⟩ scope)
      (fun v => e'.apply v ⟨source', b :: q⟩ scope') document := by
  obtain ⟨k, hk⟩ := hp.head
  obtain ⟨l, hl⟩ := hq.head
  have hkey := Segment.keyIn_of_literal hk scope
  have hkey' := Segment.keyIn_of_literal hl scope'
  have hnames : k.name = l.name := by
    rw [Segment.fieldName?, Segment.fieldName?, hk, hl] at hname
    exact Option.some.inj hname
  have hsame := Key.sameChild_of_name_eq hnames
  cases hs : document.childSlot? k.toValue with
  | none =>
      have hnone : document.child? k.toValue = none := Value.child?_of_childSlot?_eq_none hs
      have hnone' : document.child? l.toValue = none := by
        rw [← Value.child?_of_sameChild (hsame document), hnone]
      refine OrderFree.of_kept ?_ ?_
      · rw [apply_cons_lost e source hbehind (by rw [hkey, hnone])]
        exact lost_document ..
      · rw [apply_cons_lost e' source' hbehind' (by rw [hkey', hnone'])]
        exact lost_document ..
  | some s =>
      have hagain (w : Value) : (s.fill w).childSlot? k.toValue = some ⟨w, s.fill⟩ :=
        Value.childSlot?_fill hs w
      refine OrderFree.within (Value.fill_held_of_childSlot? hs) ?_ ?_ (hchild s.held)
      · intro w
        have hslot : (s.fill w).childSlot? (a.keyIn scope (s.fill w)) = some ⟨w, s.fill⟩ := by
          rw [hkey, hagain]
        exact apply_cons e source hp.isFlat hbehind hslot
      · intro w
        have hslot : (s.fill w).childSlot? (b.keyIn scope' (s.fill w)) = some ⟨w, s.fill⟩ := by
          rw [hkey', ← Value.childSlot?_of_sameChild (hsame (s.fill w)), hagain]
        exact apply_cons e' source' hq.isFlat hbehind' hslot

/-- Where the names of the first steps differ, the edits act on different children; before that, both
go on to the same child, and the paths part behind it. -/
theorem orderFree_of_diverge {value value' : Value} (he : e = .add value ∨ e = .append value)
    (he' : e' = .add value' ∨ e' = .append value') (source source' : String)
    (scope scope' : Scope) {p q : Path} (hp : p.IsLiteral) (hq : q.IsLiteral)
    (hdiverge : p.Diverge q) (document : Value) :
    OrderFree (fun v => e.apply v ⟨source, p⟩ scope)
      (fun v => e'.apply v ⟨source', q⟩ scope') document := by
  induction p generalizing q document with
  | nil => exact (hdiverge.ne_nil.1 rfl).elim
  | cons a p ih =>
      cases q with
      | nil => exact (hdiverge.ne_nil.2 rfl).elim
      | cons b q =>
          by_cases hname : a.fieldName? = b.fieldName?
          · have hbehind : Path.Diverge p q := hdiverge.cases.resolve_left (not_not_intro hname)
            obtain ⟨hp', hq'⟩ := hbehind.ne_nil
            exact orderFree_cons source source' scope scope' hp hq hname (isBehind_of_ne_nil hp' e)
              (isBehind_of_ne_nil hq' e') document fun child => ih hp.tail hq.tail hbehind child
          · obtain ⟨k, hk⟩ := hp.head
            obtain ⟨l, hl⟩ := hq.head
            have hnames : k.name ≠ l.name := by
              intro heq
              rw [Segment.fieldName?, Segment.fieldName?, hk, hl, Option.map_some,
                Option.map_some, heq] at hname
              exact hname rfl
            have hf := actsOn_apply e value he source scope hp hk
            have hg := actsOn_apply e' value' he' source' scope' hq hl
            exact hf.orderFree hg (Key.apart_of_name_ne hnames) document

/-- **Independent edits commute.** Two paths with literal keys whose names differ at some position that
both have are edited by `add` or `append`, in either order. Both orders leave the same document, and each
edit has the same outcome in both, also if it is rejected. -/
theorem independent_edits_commute (e e' : Edit) (value value' : Value)
    (he : e = .add value ∨ e = .append value) (he' : e' = .add value' ∨ e' = .append value')
    (p q : CompiledPath) (hp : p.path.IsLiteral) (hq : q.path.IsLiteral)
    (hdiverge : p.path.Diverge q.path) (scope scope' : Scope) (document : Value) :
    let first := e.apply document p scope
    let second := e'.apply first.document q scope'
    let first' := e'.apply document q scope'
    let second' := e.apply first'.document p scope
    second.document = second'.document ∧ second'.outcome = first.outcome ∧
      second.outcome = first'.outcome := by
  intro first second first' second'
  have horder := orderFree_of_diverge he he' p.source q.source scope scope' hp hq hdiverge
    document
  exact ⟨horder.document, horder.first, horder.second⟩

/-- Two paths go on to the same item, by the integer 0 and by the string "0", and part there. -/
theorem independent_edits_commute_in_item :
    let p : CompiledPath := ⟨"l[0].a", [.name "l", .index (.int 0), .name "a"]⟩
    let q : CompiledPath := ⟨"l['0'].b", [.name "l", .index (.str "0"), .name "b"]⟩
    let document := Value.object [("l", .array [.object [("b", .array [.null])]])]
    let first := (Edit.add (.integer 1)).apply document p .empty
    let second := (Edit.append (.boolean true)).apply first.document q .empty
    let first' := (Edit.append (.boolean true)).apply document q .empty
    let second' := (Edit.add (.integer 1)).apply first'.document p .empty
    p.path.IsLiteral ∧ q.path.IsLiteral ∧ p.path.Diverge q.path ∧
    first.outcome = .created (.string "a") ∧ first'.outcome = .appended 1 ∧
    second.document = second'.document ∧ second'.outcome = first.outcome ∧
      second.outcome = first'.outcome := by
  intro p q document first second first' second'
  have hp : p.path.IsLiteral := by
    simp [p, Path.IsLiteral, Segment.literal?]
  have hq : q.path.IsLiteral := by
    simp [q, Path.IsLiteral, Segment.literal?]
  have hdiverge : p.path.Diverge q.path :=
    ⟨2, .name "a", .name "b", rfl, rfl, by simp [Segment.fieldName?, Segment.literal?, Key.name]⟩
  refine ⟨hp, hq, hdiverge, rfl, rfl, ?_⟩
  exact independent_edits_commute (.add (.integer 1)) (.append (.boolean true)) (.integer 1)
    (.boolean true) (Or.inl rfl) (Or.inr rfl) p q hp hq hdiverge .empty .empty document

end Edit

end DocPath
