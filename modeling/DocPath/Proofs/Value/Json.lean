import DocPath.Proofs.Binary64.Rounding
import DocPath.Value.Json

/-!
# JSON values as document values, and back

A document value has one kind of integer, of 64 bits with a sign, and JSON has integers of 64
bits without a sign too. The greater half of those become floating-point numbers on the way
into a document, with eleven bits less, and stay so on the way back; nothing else is lost
(`toJson_ofJson`). So a JSON value comes back as it was exactly if no such integer stands
anywhere in it (`narrowed_eq_self_iff`).
-/

namespace DocPath

theorem Json.ofBinary64_of_finite {x : Binary64} (h : x.isFinite = true) :
    Json.ofBinary64 x = .number (.float x h) :=
  dif_pos h

namespace JsonNumber

/-- Whether the number has the same kind and value in a document. -/
def isNarrow : JsonNumber → Bool
  | .integer n _ => n ≤ Int64.maxValue.toInt
  | .float .. => true

/-- An integer that needs 64 bits without a sign is replaced by a floating-point number. -/
def narrowed : JsonNumber → Json
  | .integer n h =>
    if n ≤ Int64.maxValue.toInt then .number (.integer n h) else .ofBinary64 (.ofNat n.toNat)
  | .float x h => .number (.float x h)

theorem narrowed_eq_number_iff {n : JsonNumber} : n.narrowed = .number n ↔ n.isNarrow = true := by
  cases n with
  | float x finite => simp [narrowed, isNarrow]
  | integer n inRange =>
      simp only [narrowed, isNarrow, decide_eq_true_eq]
      split
      · rename_i hle
        simp [hle]
      · rename_i hlt
        simp only [hlt, iff_false]
        unfold Json.ofBinary64
        split <;> simp

/-- The floating-point number in the place of an integer is finite, and one of the nearest to
it: between two such numbers there are 2048 steps. -/
theorem exists_narrowed_eq_float {n : Int} (inRange : Int64.minValue.toInt ≤ n ∧ n < UInt64.size)
    (hlarge : Int64.maxValue.toInt < n) :
    ∃ x finite m, (JsonNumber.integer n inRange).narrowed = .number (.float x finite) ∧
      x.toNat? = some m ∧ m % 2048 = 0 ∧ ((m : Int) - n).natAbs ≤ 1024 := by
  have hmax : Int64.maxValue.toInt = 9223372036854775807 := by decide
  have hsize : UInt64.size = 18446744073709551616 := by decide
  have hlow : Nat.pow 2 63 ≤ n.toNat := by
    rw [show Nat.pow 2 63 = 9223372036854775808 from rfl]
    omega
  have hhigh : n.toNat < Nat.pow 2 64 := by
    rw [show Nat.pow 2 64 = 18446744073709551616 from rfl]
    omega
  obtain ⟨s, hvalue, hbelow, habove⟩ :=
    Binary64.exists_toNat?_ofNat (by decide) (by decide) hlow hhigh
  rw [show Nat.pow 2 (63 - 52) = 2048 from rfl] at hvalue hbelow habove
  have hfinite := Binary64.isFinite_of_toNat? hvalue
  refine ⟨_, hfinite, s * 2048, ?_, hvalue, by omega, by omega⟩
  show (if n ≤ Int64.maxValue.toInt then _ else Json.ofBinary64 (.ofNat n.toNat)) = _
  rw [if_neg (Int.not_le.mpr hlarge), Json.ofBinary64_of_finite hfinite]

theorem toJson_ofNumber (n : JsonNumber) : (Value.ofNumber n).toJson = n.narrowed := by
  cases n with
  | float x finite =>
      show Json.ofBinary64 x = .number (.float x finite)
      exact Json.ofBinary64_of_finite finite
  | integer n inRange =>
      have hmin : Int64.minValue.toInt = -9223372036854775808 := by decide
      have hmax : Int64.maxValue.toInt = 9223372036854775807 := by decide
      unfold Value.ofNumber toInt64? narrowed
      by_cases hle : n ≤ Int64.maxValue.toInt
      · have hn : (Int64.ofInt n).toInt = n :=
          Int64.toInt_ofInt_of_le (by omega) (by omega)
        simp only [if_pos hle, Value.toJson, Json.ofInt64, ofInt64, hn]
      · have hnegative : decide (n < 0) = false := decide_eq_false (by omega)
        have hnat : n.natAbs = n.toNat := by omega
        simp only [if_neg hle, Value.toJson, toBinary64, hnegative, hnat, Binary64.ofNat]

end JsonNumber

namespace Json

mutual

/-- Whether all numbers in a value have the same kind and value in a document. -/
def isNarrow : Json → Bool
  | .number n => n.isNarrow
  | .array items => itemsNarrow items
  | .object members => membersNarrow members
  | _ => true

def itemsNarrow : List Json → Bool
  | [] => true
  | j :: rest => j.isNarrow && itemsNarrow rest

def membersNarrow : List (String × Json) → Bool
  | [] => true
  | (_, j) :: rest => j.isNarrow && membersNarrow rest

end

mutual

/-- The numbers at all depths are replaced, and nothing else is. -/
def narrowed : Json → Json
  | .number n => n.narrowed
  | .array items => .array (narrowedItems items)
  | .object members => .object (narrowedMembers members)
  | j => j

def narrowedItems : List Json → List Json
  | [] => []
  | j :: rest => j.narrowed :: narrowedItems rest

def narrowedMembers : List (String × Json) → List (String × Json)
  | [] => []
  | (name, j) :: rest => (name, j.narrowed) :: narrowedMembers rest

end

mutual

theorem narrowed_eq_self_iff : (j : Json) → (j.narrowed = j ↔ j.isNarrow = true)
  | .null | .bool _ | .string _ => by simp [narrowed, isNarrow]
  | .number n => by
      rw [narrowed, isNarrow]
      exact JsonNumber.narrowed_eq_number_iff
  | .array items => by
      rw [narrowed, isNarrow, array.injEq]
      exact narrowedItems_eq_self_iff items
  | .object members => by
      rw [narrowed, isNarrow, object.injEq]
      exact narrowedMembers_eq_self_iff members

theorem narrowedItems_eq_self_iff :
    (items : List Json) → (narrowedItems items = items ↔ itemsNarrow items = true)
  | [] => by simp [narrowedItems, itemsNarrow]
  | j :: rest => by
      rw [narrowedItems, itemsNarrow, List.cons.injEq, Bool.and_eq_true]
      exact and_congr j.narrowed_eq_self_iff (narrowedItems_eq_self_iff rest)

theorem narrowedMembers_eq_self_iff :
    (members : List (String × Json)) →
      (narrowedMembers members = members ↔ membersNarrow members = true)
  | [] => by simp [narrowedMembers, membersNarrow]
  | (name, j) :: rest => by
      rw [narrowedMembers, membersNarrow, List.cons.injEq, Bool.and_eq_true, Prod.mk.injEq]
      exact and_congr (by simpa using j.narrowed_eq_self_iff) (narrowedMembers_eq_self_iff rest)

end

end Json

/-! ## There and back -/

namespace Value

mutual

theorem toJson_ofJson : (j : Json) → (ofJson j).toJson = j.narrowed
  | .null | .bool _ | .string _ => by simp only [ofJson, toJson, Json.narrowed]
  | .number n => by
      rw [ofJson, Json.narrowed]
      exact n.toJson_ofNumber
  | .array items => by
      rw [ofJson, toJson, Json.narrowed]
      exact congrArg Json.array (toItems_ofItems items)
  | .object members => by
      rw [ofJson, toJson, Json.narrowed]
      exact congrArg Json.object (toMembers_ofMembers members)

theorem toItems_ofItems : (items : List Json) → toItems (ofItems items) = Json.narrowedItems items
  | [] => rfl
  | j :: rest => by
      rw [ofItems, toItems, Json.narrowedItems, toJson_ofJson j, toItems_ofItems rest]

theorem toMembers_ofMembers :
    (members : List (String × Json)) → toMembers (ofMembers members) = Json.narrowedMembers members
  | [] => rfl
  | (name, j) :: rest => by
      rw [ofMembers, toMembers, Json.narrowedMembers, toJson_ofJson j, toMembers_ofMembers rest]

end

end Value

end DocPath
