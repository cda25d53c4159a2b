import DocPath.Json.Reader
import DocPath.Json.Writer
import DocPath.Value.Basic

/-!
# Values and JSON

A JSON number becomes an integer if 64 bits with a sign hold it and a floating-point
number otherwise. The way back keeps everything but the numbers that are not finite,
which become null.
-/

namespace DocPath

namespace Value

def ofNumber (n : JsonNumber) : Value :=
  match n.toInt64? with
  | some i => .integer i
  | none => .float n.toBinary64

mutual

def ofJson : Json → Value
  | .null => .null
  | .bool b => .boolean b
  | .number n => ofNumber n
  | .string s => .string s
  | .array items => .array (ofItems items)
  | .object members => .object (ofMembers members)

def ofItems : List Json → List Value
  | [] => []
  | j :: rest => ofJson j :: ofItems rest

def ofMembers : List (String × Json) → List (String × Value)
  | [] => []
  | (name, j) :: rest => (name, ofJson j) :: ofMembers rest

end

mutual

def toJson : Value → Json
  | .null => .null
  | .boolean b => .bool b
  | .integer n => .ofInt64 n
  | .float x => .ofBinary64 x
  | .string s => .string s
  | .array items => .array (toItems items)
  | .object fields => .object (toMembers fields)

def toItems : List Value → List Json
  | [] => []
  | v :: rest => toJson v :: toItems rest

def toMembers : List (String × Value) → List (String × Json)
  | [] => []
  | (name, v) :: rest => (name, toJson v) :: toMembers rest

end

/-- The value that a JSON text stands for, if it is one. -/
def read (text : String) : Option Value :=
  (Json.read text).map ofJson

/-- The compact JSON text of a value. -/
def text (v : Value) : String :=
  v.toJson.compact

end Value

end DocPath
