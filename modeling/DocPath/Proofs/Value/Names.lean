import DocPath.Proofs.Binary64.Whole
import DocPath.Proofs.Edit.Position
import DocPath.Proofs.Path.Literal

/-!
# The names of list positions

A key may address an item of a list by a position and a field of an object by a name. Up to `2 ^ 53` the
name is the numeral of the position, be the key an integer, a string or a whole floating-point number
(`Value.fieldName?_of_index?`). So a whole floating-point number and the integer of the same value are one
key (`Value.sameChild_of_number?`). The negative zero alone is not: its position is 0 and its name is `-0`.
-/

namespace DocPath

/-! ## The names of whole numbers -/

/-- The sign of a number of a whole value other than zero is that of the value. -/
theorem Binary64.sign_eq_of_toRat? {negative : Bool} {exponent : Fin 2047} {fraction : Fin fractions}
    {z : Int} (hz : z ≠ 0) (h : (finite negative exponent fraction).toRat? = some ↑z) :
    negative = decide (z < 0) ∧ (magnitude exponent fraction).toRat = z.natAbs := by
  have hnonneg := (magnitude exponent fraction).toRat_nonneg
  have hvalue := Option.some.inj h
  cases negative with
  | false =>
      simp only [Bool.false_eq_true, if_false] at hvalue
      rw [hvalue] at hnonneg ⊢
      have hpos : 0 ≤ z := by exact_mod_cast hnonneg
      refine ⟨by simpa using hpos, ?_⟩
      rw [← Int.cast_natCast, Int.natAbs_of_nonneg hpos]
  | true =>
      simp only [if_true] at hvalue
      have hneg : z ≤ 0 := by
        have hle : (z : Rat) ≤ 0 := by linarith
        exact_mod_cast hle
      refine ⟨by simpa using lt_of_le_of_ne hneg hz, ?_⟩
      rw [neg_eq_iff_eq_neg.mp hvalue, ← Int.cast_natCast, Int.ofNat_natAbs_of_nonpos hneg, Int.cast_neg]

namespace Value

/-- A whole floating-point number is named by its numeral. Only the negative zero is not: its name
has the sign. -/
theorem floatFieldName_of_toRat? {x : Binary64} {z : Int} (h : x.toRat? = some ↑z)
    (hle : z.natAbs ≤ 2 ^ 53) (hzero : x ≠ .zero true) : floatFieldName x = Numeral.intText z := by
  by_cases hz : z = 0
  · subst hz
    obtain ⟨negative, rfl⟩ := Binary64.eq_zero_of_isZero (Binary64.toRat?_eq_zero_iff.mp h)
    cases negative with
    | false => rfl
    | true => exact absurd rfl hzero
  · cases x with
    | finite negative exponent fraction =>
        obtain ⟨rfl, hmagnitude⟩ := Binary64.sign_eq_of_toRat? hz h
        rw [floatFieldName, Numeral.intText, Numeral.ofInt,
          DecimalStyle.write_of_toRat (fun _ => rfl) rfl (Int.natAbs_pos.mpr hz) hle hmagnitude]
        simp only [decide_eq_true_eq]
    | _ => cases h

theorem fieldName?_of_number? {k : Value} {z : Int} (h : k.number? = some ↑z) (hle : z.natAbs ≤ 2 ^ 53)
    (hzero : k ≠ .float (.zero true)) : k.fieldName? = some (Numeral.intText z) := by
  cases k with
  | integer n =>
      have hn : n.toInt = z := by exact_mod_cast Option.some.inj h
      rw [fieldName?, hn]
  | float x =>
      rw [fieldName?, floatFieldName_of_toRat? h hle fun hx => hzero (congrArg Value.float hx)]
  | _ => cases h

theorem fieldName?_negativeZero : (Value.float (.zero true)).fieldName? = some "-0" := by decide

theorem index?_negativeZero : (Value.float (.zero true)).index? = some 0 := by decide +kernel

/-! ## Positions and names -/

/-- What has the position `i` has the name `i`. -/
theorem fieldName?_of_index? {k : Value} {i : Nat} (hle : i ≤ 2 ^ 53) (h : k.index? = some i)
    (hzero : k ≠ .float (.zero true)) : k.fieldName? = some (Numeral.text i) := by
  rcases number?_of_index? h with ⟨s, rfl⟩ | ⟨n, hn⟩
  · obtain ⟨rfl, -⟩ := index?_string_eq_some_iff.mp h
    rfl
  · have hmin : min n maxIndex = i := Option.some.inj ((index?_of_number? hn).symm.trans h)
    obtain rfl : n = i := by
      rw [maxIndex_eq] at hmin
      omega
    rw [fieldName?_of_number? (z := n) hn hle hzero, Numeral.intText_natCast]

/-- Two numbers of one value have one position, or none. -/
theorem index?_eq_of_number? {k l : Value} {q : Rat} (hk : k.number? = some q) (hl : l.number? = some q) :
    k.index? = l.index? := by
  have hto {a b : Value} (ha : a.number? = some q) (hb : b.number? = some q) (i : Nat)
      (hi : a.index? = some i) : b.index? = some i := by
    rcases number?_of_index? hi with ⟨s, rfl⟩ | ⟨n, hn⟩
    · cases ha
    · rw [← hi, index?_of_number? hn, index?_of_number? (hb.trans (ha.symm.trans hn))]
  ext i
  exact ⟨hto hk hl i, hto hl hk i⟩

theorem sameChild_of_number? {k l : Value} {z : Int} (hk : k.number? = some ↑z) (hl : l.number? = some ↑z)
    (hle : z.natAbs ≤ 2 ^ 53) (hkzero : k ≠ .float (.zero true)) (hlzero : l ≠ .float (.zero true))
    (v : Value) : v.SameChild k l := by
  cases v with
  | object fields =>
      show k.fieldName? = l.fieldName?
      rw [fieldName?_of_number? hk hle hkzero, fieldName?_of_number? hl hle hlzero]
  | array items => exact index?_eq_of_number? hk hl
  | _ => trivial

/-- The integer finds the field 0, the negative zero does not. -/
theorem child?_negativeZero_ne :
    (object [("0", .null)]).child? (.float (.zero true)) ≠ (object [("0", .null)]).child? (.integer 0) := by
  have hfield : (object [("0", .null)]).child? (.integer 0) = some .null := rfl
  rw [hfield, child?, fieldName?_negativeZero]
  rintro ⟨⟩

/-- **One key names one slot.** A key that denotes the position `i` of a list denotes the field `i` of an
object, and a whole number finds the same child of every value as the integer of its value. The negative
zero is the one exception to either. -/
theorem position_is_name (k : Value) :
    (∀ i : Nat, i ≤ 2 ^ 53 → k.index? = some i →
      (k.fieldName? = some (Numeral.text i) ↔ k ≠ .float (.zero true))) ∧
    ∀ n : Int64, n.toInt.natAbs ≤ 2 ^ 53 → k.number? = some ↑n.toInt →
      ((∀ v : Value, v.child? k = v.child? (.integer n)) ↔ k ≠ .float (.zero true)) := by
  refine ⟨fun i hle hi => ⟨?_, fieldName?_of_index? hle hi⟩, fun n hle hk => ⟨?_, ?_⟩⟩
  · rintro hname rfl
    obtain rfl : 0 = i := Option.some.inj (index?_negativeZero.symm.trans hi)
    exact absurd (fieldName?_negativeZero.symm.trans hname) (by decide)
  · rintro hsame rfl
    have hn : n.toInt = 0 := by
      have hzero : (Binary64.zero true).toRat? = some 0 := Binary64.toRat?_eq_zero_iff.mpr rfl
      exact_mod_cast Option.some.inj (hk.symm.trans hzero)
    obtain rfl : n = 0 := Int64.toInt_inj.mp hn
    exact child?_negativeZero_ne (hsame _)
  · intro hzero v
    exact child?_of_sameChild (sameChild_of_number? (l := .integer n) hk rfl hle hzero nofun v)

/-- The number `2 ^ 53` is the last of the range. -/
theorem position_is_name_last :
    let last := Value.float (.finite false 1076 0)
    let n : Int64 := 9007199254740992
    (2 ^ 53 ≤ 2 ^ 53 ∧ last.index? = some (2 ^ 53) ∧ last.fieldName? = some "9007199254740992") ∧
    n.toInt.natAbs ≤ 2 ^ 53 ∧ last.number? = some ↑n.toInt ∧
    ∀ v : Value, v.child? last = v.child? (.integer n) := by
  intro last n
  obtain ⟨hname, hsame⟩ := position_is_name last
  have hindex : last.index? = some (2 ^ 53) := by decide +kernel
  have hne : last ≠ .float (.zero true) := by
    intro heq
    exact absurd (Value.float.inj heq) (by decide)
  have hrange : n.toInt.natAbs ≤ 2 ^ 53 := by decide
  have hvalue : last.number? = some ↑n.toInt := by
    have hmagnitude : Binary64.magnitude 1076 0 = ⟨Binary64.fractions, 1⟩ := by decide
    have hinteger : n.toInt = 9007199254740992 := by decide
    norm_num [last, number?, Binary64.toRat?, hmagnitude, hinteger, Dyadic.toRat, Binary64.fractions]
  refine ⟨⟨le_refl _, hindex, ?_⟩, hrange, hvalue, (hsame n hrange hvalue).mpr hne⟩
  rw [(hname (2 ^ 53) (le_refl _) hindex).mpr hne]
  decide

/-- Not every key that has a position has its numeral for a name: the negative zero has the position 0
and the name `-0`. -/
theorem not_forall_position_is_name :
    ¬ ∀ (k : Value) (i : Nat), i ≤ 2 ^ 53 → k.index? = some i →
      k.fieldName? = some (Numeral.text i) := by
  intro hall
  have hname := hall (.float (.zero true)) 0 (Nat.zero_le _) index?_negativeZero
  exact absurd (fieldName?_negativeZero.symm.trans hname) (by decide)

end Value

end DocPath
