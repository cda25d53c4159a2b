import DocPath.Binary64.Decimal
import DocPath.Fields

/-!
# JSON values

A JSON number is an exact integer, as far as 64 bits reach with or without a sign, or
a finite floating-point number. The members of an object are in ascending order of
their names.
-/

namespace DocPath

inductive JsonNumber where
  | integer (n : Int) (inRange : Int64.minValue.toInt ≤ n ∧ n < UInt64.size)
  | float (x : Binary64) (finite : x.isFinite = true)
deriving DecidableEq

inductive Json where
  | null
  | bool (b : Bool)
  | number (n : JsonNumber)
  | string (s : String)
  | array (items : List Json)
  | object (members : List (String × Json))

namespace JsonNumber

/-- An integer that fits 64 bits with a sign. -/
def ofInt64 (n : Int64) : JsonNumber :=
  .integer n.toInt ⟨n.minValue_le_toInt, Int.lt_of_le_of_lt n.toInt_le (by decide)⟩

def ofNat (n : Nat) (h : n < UInt64.size) : JsonNumber :=
  .integer n ⟨Int.le_trans (by decide) (Int.natCast_nonneg n), Int.ofNat_lt.mpr h⟩

/-- The integer, if 64 bits with a sign hold it. -/
def toInt64? : JsonNumber → Option Int64
  | .integer n _ => if n ≤ Int64.maxValue.toInt then some (Int64.ofInt n) else none
  | .float .. => none

/-- The number itself, or the nearest to a large integer. -/
def toBinary64 : JsonNumber → Binary64
  | .integer n _ => .ofRatio (n < 0) n.natAbs 1
  | .float x _ => x

end JsonNumber

namespace Json

def ofInt64 (n : Int64) : Json :=
  .number (.ofInt64 n)

/-- A floating-point number; JSON has no text for one that is not finite. -/
def ofBinary64 (x : Binary64) : Json :=
  if h : x.isFinite = true then .number (.float x h) else .null

end Json

end DocPath
