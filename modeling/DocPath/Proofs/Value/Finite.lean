import DocPath.Proofs.Value.Json
import DocPath.Value.Slot

/-!
# Document values as JSON, and back

JSON has every integer of a document and every finite floating-point number, each of its own kind, and
none of the other floating-point numbers. Those become null on the way into JSON, and a null they stay
(`ofJson_toJson`). So a value comes back as it was exactly if all of its numbers are finite, and a
number that any keys lead to is found there again, of the same kind (`json_keeps_finite`).
-/

namespace DocPath

/-! ## Numbers -/

theorem JsonNumber.toInt64?_ofInt64 (n : Int64) : (ofInt64 n).toInt64? = some n := by
  show (if n.toInt ≤ Int64.maxValue.toInt then some (Int64.ofInt n.toInt) else none) = some n
  rw [if_pos n.toInt_le, Int64.ofInt_toInt]

theorem Json.ofBinary64_of_not_finite {x : Binary64} (h : ¬x.isFinite = true) :
    Json.ofBinary64 x = .null :=
  dif_neg h

theorem Binary64.equals_self_of_finite {x : Binary64} (h : x.isFinite = true) :
    x.equals x = true := by
  cases x with
  | finite negative exponent fraction => simp [equals]
  | _ => cases h

namespace Value

theorem ofNumber_ofInt64 (n : Int64) : ofNumber (.ofInt64 n) = .integer n := by
  unfold ofNumber
  rw [JsonNumber.toInt64?_ofInt64]

/-- A floating-point number keeps its kind, be it whole or not. -/
theorem ofNumber_float {x : Binary64} (h : x.isFinite = true) : ofNumber (.float x h) = .float x :=
  rfl

/-! ## Finite values -/

mutual

/-- Whether all floating-point numbers in a value are finite. -/
def allFinite : Value → Bool
  | .float x => x.isFinite
  | .array items => itemsFinite items
  | .object fields => fieldsFinite fields
  | _ => true

def itemsFinite : List Value → Bool
  | [] => true
  | v :: rest => v.allFinite && itemsFinite rest

def fieldsFinite : List (String × Value) → Bool
  | [] => true
  | (_, v) :: rest => v.allFinite && fieldsFinite rest

end

mutual

/-- The floating-point numbers at all depths that are not finite give way to null. -/
def finitePart : Value → Value
  | .float x => if x.isFinite then .float x else .null
  | .array items => .array (finiteItems items)
  | .object fields => .object (finiteFields fields)
  | v => v

def finiteItems : List Value → List Value
  | [] => []
  | v :: rest => v.finitePart :: finiteItems rest

def finiteFields : List (String × Value) → List (String × Value)
  | [] => []
  | (name, v) :: rest => (name, v.finitePart) :: finiteFields rest

end

theorem finitePart_float_of_finite {x : Binary64} (h : x.isFinite = true) :
    (Value.float x).finitePart = .float x := if_pos h

theorem finitePart_float_of_not_finite {x : Binary64} (h : ¬x.isFinite = true) :
    (Value.float x).finitePart = .null := if_neg h

mutual

/-- **There and back.** Only the numbers that are not finite are lost. -/
theorem ofJson_toJson : (v : Value) → ofJson v.toJson = v.finitePart
  | .null | .boolean _ | .string _ => by simp only [toJson, ofJson, finitePart]
  | .integer n => by
      rw [toJson]
      exact ofNumber_ofInt64 n
  | .float x => by
      rw [toJson]
      by_cases hx : x.isFinite = true
      · rw [finitePart_float_of_finite hx, Json.ofBinary64_of_finite hx, ofJson]
        exact ofNumber_float hx
      · rw [finitePart_float_of_not_finite hx, Json.ofBinary64_of_not_finite hx, ofJson]
  | .array items => by
      rw [toJson, ofJson, finitePart]
      exact congrArg Value.array (ofItems_toItems items)
  | .object fields => by
      rw [toJson, ofJson, finitePart]
      exact congrArg Value.object (ofMembers_toMembers fields)

theorem ofItems_toItems : (items : List Value) → ofItems (toItems items) = finiteItems items
  | [] => rfl
  | v :: rest => by
      rw [toItems, ofItems, finiteItems, ofJson_toJson v, ofItems_toItems rest]

theorem ofMembers_toMembers :
    (fields : List (String × Value)) → ofMembers (toMembers fields) = finiteFields fields
  | [] => rfl
  | (name, v) :: rest => by
      rw [toMembers, ofMembers, finiteFields, ofJson_toJson v, ofMembers_toMembers rest]

end

mutual

theorem finitePart_eq_self_iff : (v : Value) → (v.finitePart = v ↔ v.allFinite = true)
  | .null | .boolean _ | .integer _ | .string _ => by simp [finitePart, allFinite]
  | .float x => by
      rw [allFinite]
      by_cases hx : x.isFinite = true
      · simp [finitePart_float_of_finite hx, hx]
      · simp [finitePart_float_of_not_finite hx, hx]
  | .array items => by
      rw [finitePart, allFinite, array.injEq]
      exact finiteItems_eq_self_iff items
  | .object fields => by
      rw [finitePart, allFinite, object.injEq]
      exact finiteFields_eq_self_iff fields

theorem finiteItems_eq_self_iff :
    (items : List Value) → (finiteItems items = items ↔ itemsFinite items = true)
  | [] => by simp [finiteItems, itemsFinite]
  | v :: rest => by
      rw [finiteItems, itemsFinite, List.cons.injEq, Bool.and_eq_true]
      exact and_congr v.finitePart_eq_self_iff (finiteItems_eq_self_iff rest)

theorem finiteFields_eq_self_iff :
    (fields : List (String × Value)) → (finiteFields fields = fields ↔ fieldsFinite fields = true)
  | [] => by simp [finiteFields, fieldsFinite]
  | (name, v) :: rest => by
      rw [finiteFields, fieldsFinite, List.cons.injEq, Bool.and_eq_true, Prod.mk.injEq]
      exact and_congr (by simpa using v.finitePart_eq_self_iff) (finiteFields_eq_self_iff rest)

end

mutual

/-- Equality as numbers makes no difference here: no null equals a number. -/
theorem equals_finitePart_iff : (v : Value) → (v.finitePart.equals v = true ↔ v.allFinite = true)
  | .null | .boolean _ | .integer _ | .string _ => by simp [finitePart, allFinite, equals]
  | .float x => by
      rw [allFinite]
      by_cases hx : x.isFinite = true
      · simp [finitePart_float_of_finite hx, equals, Binary64.equals_self_of_finite hx, hx]
      · simp [finitePart_float_of_not_finite hx, equals, hx]
  | .array items => by
      rw [finitePart, allFinite, equals]
      exact itemsEqual_finiteItems_iff items
  | .object fields => by
      rw [finitePart, allFinite, equals]
      exact fieldsEqual_finiteFields_iff fields

theorem itemsEqual_finiteItems_iff :
    (items : List Value) → (itemsEqual (finiteItems items) items = true ↔ itemsFinite items = true)
  | [] => by simp [finiteItems, itemsEqual, itemsFinite]
  | v :: rest => by
      rw [finiteItems, itemsEqual, itemsFinite, Bool.and_eq_true, Bool.and_eq_true]
      exact and_congr v.equals_finitePart_iff (itemsEqual_finiteItems_iff rest)

theorem fieldsEqual_finiteFields_iff :
    (fields : List (String × Value)) →
      (fieldsEqual (finiteFields fields) fields = true ↔ fieldsFinite fields = true)
  | [] => by simp [finiteFields, fieldsEqual, fieldsFinite]
  | (name, v) :: rest => by
      rw [finiteFields, fieldsEqual, fieldsFinite, decide_eq_true rfl, Bool.true_and, Bool.and_eq_true,
        Bool.and_eq_true]
      exact and_congr v.equals_finitePart_iff (fieldsEqual_finiteFields_iff rest)

end

/-! ## What is found in a value that came back -/

theorem getElem?_finiteItems (items : List Value) (i : Nat) :
    (finiteItems items)[i]? = items[i]?.map finitePart := by
  induction items generalizing i with
  | nil => rfl
  | cons v rest ih =>
      cases i with
      | zero => rfl
      | succ i => exact ih i

theorem get?_finiteFields (fields : List (String × Value)) (name : String) :
    Fields.get? (finiteFields fields) name = (Fields.get? fields name).map finitePart := by
  induction fields with
  | nil => rfl
  | cons entry rest ih =>
      obtain ⟨n, v⟩ := entry
      rw [finiteFields, Fields.get?, Fields.get?]
      split
      · rfl
      · exact ih

theorem child?_finitePart (v key : Value) :
    v.finitePart.child? key = (v.child? key).map finitePart := by
  cases v with
  | array items =>
      show key.index?.bind (fun i => (finiteItems items)[i]?) =
        (key.index?.bind fun i => items[i]?).map finitePart
      rw [Option.map_bind]
      exact congrArg key.index?.bind (funext (getElem?_finiteItems items))
  | object fields =>
      show key.fieldName?.bind (Fields.get? (finiteFields fields)) =
        (key.fieldName?.bind (Fields.get? fields)).map finitePart
      rw [Option.map_bind]
      exact congrArg key.fieldName?.bind (funext (get?_finiteFields fields))
  | float x =>
      -- neither a number nor the null in its place has children
      by_cases hx : x.isFinite = true
      · rw [finitePart_float_of_finite hx]
        rfl
      · rw [finitePart_float_of_not_finite hx]
        rfl
  | _ => rfl

theorem find?_finitePart (v : Value) (keys : List Value) :
    v.finitePart.find? keys = (v.find? keys).map finitePart := by
  induction keys generalizing v with
  | nil => rfl
  | cons key keys ih =>
      rw [find?, find?, child?_finitePart, Option.map_bind]
      cases v.child? key with
      | none => rfl
      | some child => exact ih child

theorem finitePart_eq_integer_iff {v : Value} {n : Int64} :
    v.finitePart = .integer n ↔ v = .integer n := by
  cases v with
  | float x =>
      by_cases hx : x.isFinite = true
      · simp [finitePart_float_of_finite hx]
      · simp [finitePart_float_of_not_finite hx]
  | _ => simp [finitePart]

theorem finitePart_eq_float_iff {v : Value} {x : Binary64} :
    v.finitePart = .float x ↔ v = .float x ∧ x.isFinite = true := by
  cases v with
  | float y =>
      by_cases hy : y.isFinite = true
      · rw [finitePart_float_of_finite hy, float.injEq]
        constructor
        · rintro rfl
          exact ⟨rfl, hy⟩
        · rintro ⟨h, -⟩
          exact h
      · rw [finitePart_float_of_not_finite hy, float.injEq]
        constructor
        · rintro ⟨⟩
        · rintro ⟨rfl, hx⟩
          exact absurd hx hy
  | _ => simp [finitePart]

/-- **JSON keeps the finite values.** A value that has become JSON comes back with null in the place of
each number that is not finite and with nothing else changed. So it comes back as it was, or as a value
that is equal to it, exactly if it has no such number. At any place, an integer is found exactly where
there was that integer, and a floating-point number, be it whole or not, exactly where there was that
finite number. -/
theorem json_keeps_finite (v : Value) :
    let back := ofJson v.toJson
    back = v.finitePart ∧
    (back = v ↔ v.allFinite = true) ∧
    (back.equals v = true ↔ v.allFinite = true) ∧
    ∀ keys : List Value,
      (∀ n, back.find? keys = some (.integer n) ↔ v.find? keys = some (.integer n)) ∧
      ∀ x, back.find? keys = some (.float x) ↔ v.find? keys = some (.float x) ∧ x.isFinite = true := by
  intro back
  have hback : back = v.finitePart := ofJson_toJson v
  rw [hback]
  refine ⟨rfl, v.finitePart_eq_self_iff, v.equals_finitePart_iff, ?_⟩
  intro keys
  rw [find?_finitePart]
  constructor
  · intro n
    simp only [Option.map_eq_some_iff, finitePart_eq_integer_iff, exists_eq_right]
  · intro x
    constructor
    · intro h
      obtain ⟨w, hw, hx⟩ := Option.map_eq_some_iff.mp h
      obtain ⟨rfl, hfinite⟩ := finitePart_eq_float_iff.mp hx
      exact ⟨hw, hfinite⟩
    · rintro ⟨hw, hfinite⟩
      rw [hw, Option.map_some, finitePart_float_of_finite hfinite]

end Value

end DocPath
