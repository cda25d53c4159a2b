import DocPath.Proofs.Edit.ReadBack

/-!
# Steps with literal keys

A key that is written out is a string or an integer, and either may be followed into an object or into
a list. What it addresses there is a matter of its name alone, the field name that it denotes. Two keys
with one name address the same child of every container (`Key.sameChild_of_name_eq`), be it the integer
0 and the string "0"; two keys with different names never do (`Key.apart_of_name_ne`), because no list
position has two canonical numerals.
-/

namespace DocPath

/-! ## Names of keys -/

/-- The field name that a key denotes. -/
def Key.name : Key → String
  | .int n => Numeral.intText n.toInt
  | .str s => s

@[simp] theorem Key.fieldName?_toValue (key : Key) : key.toValue.fieldName? = some key.name := by
  cases key <;> rfl

/-- The strings that denote a list position are the canonical numerals in range. -/
theorem Value.index?_string_eq_some_iff {s : String} {i : Nat} :
    (Value.string s).index? = some i ↔ s = Numeral.text i ∧ i ≤ maxIndex := by
  constructor
  · intro h
    change (if Numeral.isCanonical s.toList && Numeral.value s.toList ≤ maxIndex then
      some (Numeral.value s.toList) else none) = some i at h
    split at h
    · rename_i hcanonical
      rw [Bool.and_eq_true, decide_eq_true_eq] at hcanonical
      obtain rfl : Numeral.value s.toList = i := Option.some.inj h
      refine ⟨?_, hcanonical.2⟩
      rw [Numeral.text, Numeral.digits_value hcanonical.1, String.ofList_toList]
    · cases h
  · rintro ⟨rfl, hle⟩
    simp [index?, Numeral.text, Numeral.isCanonical_digits, hle]

theorem Value.index?_string_of_neg {n : Int} (h : n < 0) :
    (Value.string (Numeral.intText n)).index? = none := by
  have hminus : Numeral.isCanonical ('-' :: Numeral.digits n.natAbs) = false := by
    simp [Numeral.isCanonical]
  simp [index?, Numeral.intText, Numeral.ofInt, h, hminus]

/-- A literal key denotes the list position that its name denotes. -/
theorem Key.index?_toValue (key : Key) : key.toValue.index? = (Value.string key.name).index? := by
  cases key with
  | str s => rfl
  | int n =>
      by_cases hneg : n.toInt < 0
      · rw [name, Value.index?_string_of_neg hneg]
        exact if_neg (Int.not_le.mpr hneg)
      · have hpos : 0 ≤ n.toInt := Int.not_lt.mp hneg
        have hrange : n.toInt.natAbs ≤ Value.maxIndex := by
          have hlt := n.toInt_lt
          have hmax : Value.maxIndex = 18446744073709551615 := rfl
          omega
        have htext : name (.int n) = Numeral.text n.toInt.natAbs := by
          rw [name, ← Numeral.intText_natCast, Int.natAbs_of_nonneg hpos]
        rw [Value.index?_string_eq_some_iff.mpr ⟨htext, hrange⟩]
        show (if 0 ≤ n.toInt then some n.toInt.toNat else none) = some n.toInt.natAbs
        rw [if_pos hpos]
        congr 1
        omega

/-- Two keys that address different children of every container, if any. -/
structure Value.Apart (k l : Value) : Prop where
  field : k.fieldName? ≠ l.fieldName?
  item : ∀ i, k.index? = some i → l.index? ≠ some i

theorem Key.sameChild_of_name_eq {k l : Key} (h : k.name = l.name) (v : Value) :
    v.SameChild k.toValue l.toValue := by
  cases v with
  | object fields =>
      show k.toValue.fieldName? = l.toValue.fieldName?
      rw [fieldName?_toValue, fieldName?_toValue, h]
  | array items =>
      show k.toValue.index? = l.toValue.index?
      rw [index?_toValue, index?_toValue, h]
  | _ => trivial

theorem Key.apart_of_name_ne {k l : Key} (h : k.name ≠ l.name) : k.toValue.Apart l.toValue where
  field := by
    rw [fieldName?_toValue, fieldName?_toValue]
    exact fun heq => h (Option.some.inj heq)
  item := by
    intro i hk hl
    rw [index?_toValue] at hk hl
    have hkname := (Value.index?_string_eq_some_iff.mp hk).1
    have hlname := (Value.index?_string_eq_some_iff.mp hl).1
    exact h (hkname.trans hlname.symm)

/-! ## Literal paths -/

/-- The key that is written out in a step. A name and a string in brackets are one key. -/
def Segment.literal? : Segment → Option Key
  | .index key => some key
  | .name s => some (.str s)
  | .variable _ | .nested _ => none

/-- The name of a step, if its key is written out. -/
def Segment.fieldName? (segment : Segment) : Option String :=
  segment.literal?.map Key.name

theorem Segment.keyIn_of_literal {segment : Segment} {key : Key} (h : segment.literal? = some key)
    (scope : Scope) (document : Value) : segment.keyIn scope document = key.toValue := by
  cases segment with
  | index literal | name literal =>
      cases h
      simp only [keyIn, Key.toValue]
  | _ => cases h

/-- All keys are written out. -/
def Path.IsLiteral (path : Path) : Prop :=
  ∀ segment ∈ path, segment.literal?.isSome = true

theorem Path.IsLiteral.head {segment : Segment} {rest : Path}
    (h : Path.IsLiteral (segment :: rest)) : ∃ key, segment.literal? = some key :=
  Option.isSome_iff_exists.mp (h segment List.mem_cons_self)

theorem Path.IsLiteral.tail {segment : Segment} {rest : Path}
    (h : Path.IsLiteral (segment :: rest)) : Path.IsLiteral rest :=
  fun step hstep => h step (List.mem_cons_of_mem segment hstep)

theorem Path.IsLiteral.isFlat {path : Path} (h : path.IsLiteral) : path.IsFlat := by
  intro sub hsub
  have hliteral := h (.nested sub) hsub
  exact Bool.noConfusion hliteral

/-- The names in the steps of two paths differ at some position that both paths have. -/
def Path.Diverge (p q : Path) : Prop :=
  ∃ (n : Nat) (a b : Segment), p[n]? = some a ∧ q[n]? = some b ∧
    a.fieldName? ≠ b.fieldName?

theorem Path.Diverge.cases {a b : Segment} {p q : Path} (h : Path.Diverge (a :: p) (b :: q)) :
    a.fieldName? ≠ b.fieldName? ∨ Path.Diverge p q := by
  obtain ⟨n, x, y, hx, hy, hne⟩ := h
  cases n with
  | zero =>
      cases hx
      cases hy
      exact Or.inl hne
  | succ n => exact Or.inr ⟨n, x, y, hx, hy, hne⟩

theorem Path.Diverge.ne_nil {p q : Path} (h : Path.Diverge p q) : p ≠ [] ∧ q ≠ [] := by
  obtain ⟨n, a, b, ha, hb, -⟩ := h
  constructor
  · rintro rfl
    cases ha
  · rintro rfl
    cases hb

end DocPath
