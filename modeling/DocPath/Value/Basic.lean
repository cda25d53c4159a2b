import DocPath.Binary64.Decimal
import DocPath.Fields

/-!
# Document values

A document is a value, and so is every node in it. Integers are kept apart from
floating-point numbers, so a list position is never subject to rounding. There is no
"undefined": a node that does not exist is the absence of a value.

A value is also what a key of a path is in the end. As a key it may denote a list
position (`Value.index?`), a field of an object (`Value.fieldName?`), both or neither.
-/

namespace DocPath

inductive Value where
  | null
  | boolean (b : Bool)
  | integer (n : Int64)
  | float (x : Binary64)
  | string (s : String)
  | array (items : List Value)
  | object (fields : List (String × Value))

namespace Value

instance : Inhabited Value := ⟨.object []⟩

/-- Null, false, zero, "not a number" and the empty string are falsy; containers never
are. -/
def isTruthy : Value → Bool
  | .null => false
  | .boolean b => b
  | .integer n => n ≠ 0
  | .float x => !x.isZero && x ≠ .nan
  | .string s => s ≠ ""
  | .array _ => true
  | .object _ => true

def typeName : Value → String
  | .null => "null"
  | .boolean _ => "boolean"
  | .integer _ => "integer"
  | .float _ => "float"
  | .string _ => "string"
  | .array _ => "array"
  | .object _ => "object"

mutual

/-- Equality as numbers, texts and containers. An integer never equals a floating-point
number, and a "not a number" equals nothing. -/
def equals : Value → Value → Bool
  | .null, .null => true
  | .boolean a, .boolean b => a = b
  | .integer a, .integer b => a = b
  | .float a, .float b => a.equals b
  | .string a, .string b => a = b
  | .array as, .array bs => itemsEqual as bs
  | .object as, .object bs => fieldsEqual as bs
  | _, _ => false

def itemsEqual : List Value → List Value → Bool
  | [], [] => true
  | a :: as, b :: bs => equals a b && itemsEqual as bs
  | _, _ => false

def fieldsEqual : List (String × Value) → List (String × Value) → Bool
  | [], [] => true
  | (m, a) :: as, (n, b) :: bs => m = n && equals a b && fieldsEqual as bs
  | _, _ => false

end

/-! ## Keys -/

/-- The greatest list position. -/
def maxIndex : Nat := UInt64.size - 1

/-- The list position that a value denotes: that of a natural number, whole
floating-point numbers included, or of its canonical numeral. -/
def index? : Value → Option Nat
  | .integer n => if 0 ≤ n.toInt then some n.toInt.toNat else none
  | .float x => x.toNat?.map (min · maxIndex)
  | .string s =>
    if Numeral.isCanonical s.toList && Numeral.value s.toList ≤ maxIndex then
      some (Numeral.value s.toList)
    else none
  | _ => none

/-- Field names are positional whatever the exponent, and a whole number has no point. Of
two equally near decimals the greater one is written. -/
def fieldStyle : DecimalStyle where
  tie := .upward
  isPositional _ := true
  wholePoint := false

def floatFieldName : Binary64 → String
  | .nan => "NaN"
  | .infinite false => "inf"
  | .infinite true => "-inf"
  | .finite negative exponent fraction =>
    String.ofList (fieldStyle.write negative exponent fraction)

/-- The field that a value denotes. Null and containers denote none. -/
def fieldName? : Value → Option String
  | .string s => some s
  | .integer n => some (Numeral.intText n.toInt)
  | .float x => some (floatFieldName x)
  | .boolean b => some (if b then "true" else "false")
  | _ => none

end Value

end DocPath
