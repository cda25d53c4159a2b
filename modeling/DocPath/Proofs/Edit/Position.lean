import DocPath.Edit.Basic
import DocPath.Proofs.Binary64.Exact

/-!
# The list positions of keys

A key that is an integer or a finite floating-point number has an exact value
(`Value.number?`). A lookup goes by `Value.index?` and a removal by `Edit.removalIndex?`, which
convert the number to 64 bits first, the one without a sign and the other with one, and stay at
the greatest or least number there when it does not fit. For a list that fits into memory neither
conversion can be seen: the lookup goes by the exact value (`Value.index?_of_number?`) and the
removal by the exact value truncated toward zero (`Edit.removalIndex?_of_number?`).
-/

namespace DocPath

namespace Value

theorem maxIndex_eq : maxIndex = 18446744073709551615 := by decide

/-- The exact value of a key that is an integer or a finite floating-point number. -/
def number? : Value → Option Rat
  | .integer n => some n.toInt
  | .float x => x.toRat?
  | _ => none

theorem number?_eq_none_iff {v : Value} :
    v.number? = none ↔ (∀ n, v ≠ .integer n) ∧ ∀ x, v = .float x → x.isFinite = false := by
  cases v with
  | integer n => simp [number?]
  | float x =>
      have hfinite : x.toRat? = none ↔ x.isFinite = false := by
        rw [← Binary64.toRat?_isSome, Option.isSome_eq_false_iff, Option.isNone_iff_eq_none]
      simp [number?, hfinite]
  | _ => simp [number?]

/-- A number that is natural denotes the position with just this number. -/
theorem index?_of_number? {v : Value} {n : Nat} (h : v.number? = some ↑n) :
    v.index? = some (min n maxIndex) := by
  cases v with
  | integer m =>
      have hm : m.toInt = n := by exact_mod_cast Option.some.inj h
      have hle : n ≤ maxIndex := by
        have hlt := m.toInt_lt
        rw [maxIndex_eq]
        omega
      rw [index?, hm, if_pos (Int.natCast_nonneg n), Int.toNat_natCast, min_eq_left hle]
  | float x =>
      rw [index?, Binary64.toNat?_eq_some_iff.mpr h]
      rfl
  | _ => cases h

/-- Only numbers that are natural, and canonical numerals, denote positions. -/
theorem number?_of_index? {v : Value} {i : Nat} (h : v.index? = some i) :
    (∃ s, v = .string s) ∨ ∃ n : Nat, v.number? = some ↑n := by
  cases v with
  | integer m =>
      simp only [index?, Option.ite_none_right_eq_some] at h
      refine Or.inr ⟨m.toInt.toNat, ?_⟩
      have hm : ((m.toInt.toNat : Nat) : Int) = m.toInt := Int.toNat_of_nonneg h.1
      rw [number?, ← hm]
      rfl
  | float x =>
      obtain ⟨n, hn, _⟩ := Option.map_eq_some_iff.mp h
      exact Or.inr ⟨n, Binary64.toNat?_eq_some_iff.mp hn⟩
  | string s => exact Or.inl ⟨s, rfl⟩
  | _ => cases h

theorem index?_le_maxIndex {v : Value} {i : Nat} (h : v.index? = some i) : i ≤ maxIndex := by
  rcases number?_of_index? h with ⟨s, rfl⟩ | ⟨n, hn⟩
  · simp only [index?, Option.ite_none_right_eq_some, Bool.and_eq_true, decide_eq_true_eq,
      Option.some.injEq] at h
    omega
  · obtain rfl := Option.some.inj ((index?_of_number? hn).symm.trans h)
    exact min_le_right n maxIndex

end Value

namespace Edit

/-- The position that an integer denotes in a list: from the start, or if it is negative from the
end, and then at the start if the list is too short. -/
def listPosition (length : Nat) (z : Int) : Nat :=
  (if 0 ≤ z then z else max 0 (length + z)).toNat

@[simp] theorem listPosition_natCast (length n : Nat) : listPosition length n = n := by
  unfold listPosition
  rw [if_pos (Int.natCast_nonneg n), Int.toNat_natCast]

theorem clampInt64_eq (z : Int) :
    clampInt64 z = max (-9223372036854775808) (min z 9223372036854775807) := by
  have hmin : Int64.minValue.toInt = -9223372036854775808 := by decide
  have hmax : Int64.maxValue.toInt = 9223372036854775807 := by decide
  unfold clampInt64 Int64.ofIntClamp
  split
  · split
    · rw [Int64.toInt_ofIntLE]
      omega
    · omega
  · omega

theorem clampInt64_toInt (n : Int64) : clampInt64 n.toInt = n.toInt := by
  have hlow := n.le_toInt
  have hhigh := n.toInt_lt
  rw [clampInt64_eq]
  omega

/-- Positions behind the end aside, the conversion to 64 bits changes no position. -/
theorem min_listPosition_clampInt64 {length : Nat} (h : length < 2 ^ 63) (z : Int) :
    min length (listPosition length (clampInt64 z)) = min length (listPosition length z) := by
  rw [clampInt64_eq]
  unfold listPosition
  split <;> split <;> omega

theorem removalIndex?_eq (key : Value) (length : Nat) :
    removalIndex? key length =
      key.number?.map fun q => listPosition length (clampInt64 (towardZero q)) := by
  have hposition (z : Int) :
      (if 0 ≤ z then z.toNat else length - z.natAbs) = listPosition length z := by
    unfold listPosition
    split <;> omega
  cases key with
  | integer n =>
      simp only [removalIndex?, hposition, Value.number?, Option.map_some, towardZero_intCast,
        clampInt64_toInt]
  | float x =>
      simp [removalIndex?, Value.number?, hposition, Binary64.truncate?_eq, Function.comp_def]
  | _ => rfl

theorem removalIndex?_eq_none_iff {key : Value} {length : Nat} :
    removalIndex? key length = none ↔ key.number? = none := by
  rw [removalIndex?_eq, Option.map_eq_none_iff]

/-- A number denotes the position of its exact value truncated toward zero, in every list that fits
into memory. -/
theorem removalIndex?_of_number? {key : Value} {q : Rat} {length : Nat} (h : key.number? = some q)
    (hlength : length < 2 ^ 63) :
    ∃ i, removalIndex? key length = some i ∧
      min length i = min length (listPosition length (towardZero q)) := by
  refine ⟨_, ?_, min_listPosition_clampInt64 hlength (towardZero q)⟩
  rw [removalIndex?_eq, h]
  rfl

/-- A natural number denotes the position with just this number. -/
theorem removalIndex?_of_natCast {key : Value} {n length : Nat} (h : key.number? = some ↑n)
    (hlength : length < 2 ^ 63) :
    ∃ i, removalIndex? key length = some i ∧ min length i = min length n := by
  obtain ⟨i, hi, hmin⟩ := removalIndex?_of_number? h hlength
  rw [towardZero_natCast, listPosition_natCast] at hmin
  exact ⟨i, hi, hmin⟩

/-- A removal goes to the item that a lookup finds by the same number. -/
theorem removalIndex?_of_index? {key : Value} {length i : Nat} (hi : key.index? = some i)
    (hlt : i < length) (hlength : length < 2 ^ 63) (hstring : ∀ s, key ≠ .string s) :
    removalIndex? key length = some i := by
  obtain ⟨s, rfl⟩ | ⟨n, hn⟩ := Value.number?_of_index? hi
  · exact (hstring s rfl).elim
  · have hmin : min n Value.maxIndex = i :=
      Option.some.inj ((Value.index?_of_number? hn).symm.trans hi)
    obtain ⟨j, hj, hjn⟩ := removalIndex?_of_natCast hn hlength
    rw [Value.maxIndex_eq] at hmin
    rw [hj]
    congr 1
    omega

end Edit

end DocPath
