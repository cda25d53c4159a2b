import DocPath.Proofs.Edit.Decision
import DocPath.Proofs.Edit.Endings

/-!
# Setting extends adding

`add` and `setField` decide apart from each other, by the same container. Side by side there are
four ways through them (`Edit.SideBySide`): a container that is absent, one that is falsy, a list,
and all others, where the two are the same edit. What `setField` does beyond `add` is read off from
these (`Edit.set_extends_add`): it writes into lists, and it keeps silent where there is nothing to
write into.
-/

namespace DocPath

/-! ## Falsy containers -/

namespace Value

/-- The scalars that `setField` passes over, as if there were no container. -/
inductive FalsyScalar : Value → Prop where
  | boolean : FalsyScalar (.boolean false)
  | integer : FalsyScalar (.integer 0)
  | float (negative : Bool) : FalsyScalar (.float (.zero negative))
  | nan : FalsyScalar (.float .nan)
  | string : FalsyScalar (.string "")

theorem FalsyScalar.isScalar {v : Value} (h : v.FalsyScalar) : v.IsScalar := by
  cases h <;> trivial

theorem FalsyScalar.isTruthy {v : Value} (h : v.FalsyScalar) : v.isTruthy = false := by
  cases h with
  | float negative => cases negative <;> rfl
  | _ => rfl

theorem not_falsy_of_isTruthy {v : Value} (h : v.isTruthy = true) :
    ¬ (v = .null ∨ v.FalsyScalar) := by
  rintro (rfl | hfalsy)
  · cases h
  · rw [hfalsy.isTruthy] at h
    cases h

/-- Every value is null, a falsy or a truthy scalar, or a container. -/
theorem kinds (v : Value) :
    v = .null ∨ v.FalsyScalar ∨ (v.IsScalar ∧ v.isTruthy = true) ∨
      (∃ items, v = .array items) ∨ ∃ fields, v = .object fields := by
  cases v with
  | null => exact Or.inl rfl
  | array items => exact Or.inr (Or.inr (Or.inr (Or.inl ⟨items, rfl⟩)))
  | object fields => exact Or.inr (Or.inr (Or.inr (Or.inr ⟨fields, rfl⟩)))
  | boolean b =>
      cases b with
      | false => exact Or.inr (Or.inl .boolean)
      | true => exact Or.inr (Or.inr (Or.inl ⟨trivial, rfl⟩))
  | integer n =>
      by_cases hn : n = 0
      · subst hn
        exact Or.inr (Or.inl .integer)
      · exact Or.inr (Or.inr (Or.inl ⟨trivial, by simp [isTruthy, hn]⟩))
  | float x =>
      by_cases hzero : x.isZero = true
      · obtain ⟨negative, rfl⟩ := Binary64.eq_zero_of_isZero hzero
        exact Or.inr (Or.inl (.float negative))
      · by_cases hnan : x = .nan
        · subst hnan
          exact Or.inr (Or.inl .nan)
        · exact Or.inr (Or.inr (Or.inl ⟨trivial, by simp [isTruthy, hzero, hnan]⟩))
  | string s =>
      by_cases hs : s = ""
      · subst hs
        exact Or.inr (Or.inl .string)
      · exact Or.inr (Or.inr (Or.inl ⟨trivial, by simp [isTruthy, hs]⟩))

end Value

namespace Edit

variable {document value : Value} {path : CompiledPath} {scope : Scope}

/-! ## The two edits side by side -/

/-- An edit that found a container went through or says why it did not. -/
def Decided (document : Value) (path : CompiledPath) (edited : Edited) : Prop :=
  edited.outcome.isApplied = true ∨ ∃ fault, edited = rejected document path fault

theorem Decided.ne_ignored {edited : Edited} (h : Decided document path edited) :
    edited.outcome ≠ .ignored := by
  intro hignored
  rcases h with happlied | ⟨fault, rfl⟩
  · rw [hignored] at happlied
    cases happlied
  · cases hignored

/-- What `add` and `setField` do with the same last key, for each container there may be. -/
inductive SideBySide (document : Value) (path : CompiledPath) (key : Option Value) :
    Option Value → Edited → Edited → Prop where
  | absent : SideBySide document path key none (rejected document path (.addToUndefined key))
      (ignored document [.targetAbsent path.source])
  | null : SideBySide document path key (some .null)
      (rejected document path (.addToUndefined key))
      (ignored document [.targetAbsent path.source])
  | falsy {v : Value} (hfalsy : v.FalsyScalar) : SideBySide document path key (some v)
      (rejected document path (.notAContainer key v))
      (ignored document [.targetAbsent path.source])
  | list {items : List Value} {set : Edited}
      (hset : set.outcome.isApplied = true ∨
        set = rejected document path (.invalidIndex key items.length)) :
      SideBySide document path key (some (.array items))
        (rejected document path (.addToList key)) set
  | same {v : Value} {edited : Edited} (htruthy : v.isTruthy = true)
      (hlist : ∀ items, v ≠ .array items) (hedited : Decided document path edited) :
      SideBySide document path key (some v) edited edited

theorem decided_addValue_of_object {fields : Fields Value}
    (h : (path.resolve scope document).container? = some (.object fields)) :
    Decided document path (addValue document path value scope) := by
  obtain ⟨fill, _, hadd⟩ := addValue_of_object h
  rw [hadd]
  cases (path.resolve scope document).lastKey.bind Value.fieldName? with
  | none => exact Or.inr ⟨_, rfl⟩
  | some name => exact Or.inl (writeField_isApplied fill fields name)

theorem setValue_of_array_ends {items : List Value}
    (h : (path.resolve scope document).container? = some (.array items)) :
    (setValue document path value scope).outcome.isApplied = true ∨
      setValue document path value scope = rejected document path
        (.invalidIndex (path.resolve scope document).lastKey items.length) := by
  obtain ⟨fill, _, hwrite, hinvalid⟩ := setValue_of_array value h
  by_cases hi : ∃ key i, (path.resolve scope document).lastKey = some key ∧
      key.index? = some i ∧ i ≤ items.length + maxPadding
  · obtain ⟨key, i, hkey, hindex, hle⟩ := hi
    rw [hwrite key i hkey hindex hle]
    exact Or.inl (writeItem_isApplied fill items key i)
  · refine Or.inr (hinvalid fun i hindex => ?_)
    obtain ⟨key, hkey, hindex⟩ := Option.bind_eq_some_iff.mp hindex
    exact Nat.lt_of_not_le fun hle => hi ⟨key, i, hkey, hindex, hle⟩

theorem sideBySide (document value : Value) (path : CompiledPath) (scope : Scope) :
    SideBySide document path (path.resolve scope document).lastKey
      (path.resolve scope document).container?
      (addValue document path value scope) (setValue document path value scope) := by
  cases h : (path.resolve scope document).container? with
  | none =>
      rw [addValue_of_absent h, setValue_of_absent h]
      exact .absent
  | some container =>
      rcases container.kinds with
        rfl | hfalsy | ⟨hscalar, htruthy⟩ | ⟨items, rfl⟩ | ⟨fields, rfl⟩
      · rw [addValue_of_null h, setValue_of_falsy h rfl]
        exact .null
      · rw [addValue_of_scalar h hfalsy.isScalar, setValue_of_falsy h hfalsy.isTruthy]
        exact .falsy hfalsy
      · rw [setValue_of_scalar h hscalar htruthy]
        refine .same htruthy ?_ (Or.inr ⟨_, addValue_of_scalar h hscalar⟩)
        rintro items rfl
        exact hscalar
      · rw [addValue_of_array h]
        exact .list (setValue_of_array_ends h)
      · rw [setValue_of_object h]
        exact .same rfl nofun (decided_addValue_of_object h)

/-! ## What `setField` does beyond `add` -/

/-- `setField` is `add` extended, for a last key and a container that may be absent. They are the
same where `add` is applied (`applied`). Where there is no container or a falsy one, `setField`
does nothing (`ignored_iff`) and `add` says what is wrong (`absent`, `falsy`). Only `setField`
writes into lists (`list`). All else both reject for the same reason (`otherwise`). Neither falls
back to doing nothing once its container has passed the checks (`add_never_ignored`,
`ignored_early`). -/
structure SetExtendsAdd (path : CompiledPath) (key container : Option Value)
    (added set : Edited) : Prop where
  applied : added.outcome.isApplied = true →
    set.outcome = added.outcome ∧ set.document = added.document
  ignored_iff : set.outcome = .ignored ↔
    container = none ∨ ∃ v, container = some v ∧ (v = .null ∨ v.FalsyScalar)
  absent : container = none ∨ container = some .null →
    added.outcome = .rejected ⟨path.source, .addToUndefined key⟩
  falsy : ∀ v, container = some v → v.FalsyScalar →
    added.outcome = .rejected ⟨path.source, .notAContainer key v⟩
  list : ∀ items, container = some (.array items) →
    added.outcome = .rejected ⟨path.source, .addToList key⟩ ∧
      (set.outcome.isApplied = true ∨
        set.outcome = .rejected ⟨path.source, .invalidIndex key items.length⟩)
  otherwise : added.outcome.isApplied = false → set.outcome ≠ .ignored →
    (∀ items, container ≠ some (.array items)) →
      ∃ error, added.outcome = .rejected error ∧ set.outcome = .rejected error
  add_never_ignored : added.outcome ≠ .ignored
  ignored_early : set.outcome = .ignored → set.events = [.targetAbsent path.source]

variable {key container : Option Value} {added set : Edited}

theorem SideBySide.set_ignored_iff (h : SideBySide document path key container added set) :
    set.outcome = .ignored ↔
      container = none ∨ ∃ v, container = some v ∧ (v = .null ∨ v.FalsyScalar) := by
  cases h with
  | absent => simp [ignored]
  | null => simp [ignored]
  | falsy hfalsy => simp [ignored, hfalsy]
  | list hset =>
      have hdecided : Decided document path set := hset.imp_right fun h => ⟨_, h⟩
      simpa [hdecided.ne_ignored] using nofun
  | same htruthy hlist hedited =>
      simpa [hedited.ne_ignored] using Value.not_falsy_of_isTruthy htruthy

theorem SideBySide.setExtendsAdd (h : SideBySide document path key container added set) :
    SetExtendsAdd path key container added set := by
  constructor
  case ignored_iff => exact h.set_ignored_iff
  case applied =>
    intro happlied
    cases h with
    | same htruthy hlist hedited => exact ⟨rfl, rfl⟩
    | _ => cases happlied
  case absent =>
    rintro (rfl | rfl)
    · cases h
      rfl
    · cases h with
      | null => rfl
      | falsy hfalsy => cases hfalsy
      | same htruthy hlist hedited => cases htruthy
  case falsy =>
    rintro v rfl hfalsy
    cases h with
    | falsy _ => rfl
    | null | list _ => cases hfalsy
    | same htruthy _ _ => exact (Value.not_falsy_of_isTruthy htruthy (Or.inr hfalsy)).elim
  case list =>
    rintro items rfl
    cases h with
    | list hset => exact ⟨rfl, hset.imp_right fun h => by rw [h]; rfl⟩
    | falsy hfalsy => cases hfalsy
    | same htruthy hlist hedited => exact (hlist items rfl).elim
  case otherwise =>
    intro hnot hnotIgnored hnotList
    cases h with
    | absent | null | falsy _ => exact (hnotIgnored rfl).elim
    | list _ => exact (hnotList _ rfl).elim
    | same htruthy hlist hedited =>
        rcases hedited with happlied | ⟨fault, rfl⟩
        · rw [happlied] at hnot
          cases hnot
        · exact ⟨_, rfl, rfl⟩
  case add_never_ignored =>
    cases h with
    | same htruthy hlist hedited => exact hedited.ne_ignored
    | _ => exact nofun
  case ignored_early =>
    intro hignored
    cases h with
    | absent | null | falsy _ => rfl
    | list hset =>
        have hdecided : Decided document path set := hset.imp_right fun h => ⟨_, h⟩
        exact (hdecided.ne_ignored hignored).elim
    | same htruthy hlist hedited => exact (hedited.ne_ignored hignored).elim

/-- **Setting extends adding**, in every document and by every path. -/
theorem set_extends_add (document value : Value) (path : CompiledPath) (scope : Scope) :
    SetExtendsAdd path (path.resolve scope document).lastKey
      (path.resolve scope document).container?
      ((Edit.add value).apply document path scope)
      ((Edit.setField value).apply document path scope) :=
  (sideBySide document value path scope).setExtendsAdd

end Edit

end DocPath
