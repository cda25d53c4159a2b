import DocPath.Json.Token

/-!
# Reading JSON

One token after the other extends a partly read value: the containers still open and
what may come next. Of two members with one name the later wins. At most 127
containers may be open at once.
-/

namespace DocPath

namespace JsonReader

/-- An open container that waits for the value read next. -/
inductive Frame where
  /-- The items before it, the last first. -/
  | array (items : List Json)
  | object (members : Fields Json) (name : String)

/-- What was read, with the open containers, the innermost first. -/
inductive State where
  | value (outer : List Frame)
  | firstItem (outer : List Frame)
  | firstName (outer : List Frame)
  | nextName (members : Fields Json) (outer : List Frame)
  | colon (members : Fields Json) (name : String) (outer : List Frame)
  | afterItem (items : List Json) (outer : List Frame)
  | afterMember (members : Fields Json) (outer : List Frame)
  | done (j : Json)

def start : State :=
  .value []

def maxOpen : Nat := 127

/-- A complete value takes its place in the innermost open container. -/
def deliver (j : Json) : List Frame → State
  | [] => .done j
  | .array items :: outer => .afterItem (j :: items) outer
  | .object members name :: outer => .afterMember (members.put name j) outer

/-- A value starts; no container is opened beyond the limit. -/
def beginValue (outer : List Frame) : JsonToken → Option State
  | .scalar j => some (deliver j outer)
  | .string s => some (deliver (.string s) outer)
  | .beginArray => if outer.length < maxOpen then some (.firstItem outer) else none
  | .beginObject => if outer.length < maxOpen then some (.firstName outer) else none
  | _ => none

def feed : State → JsonToken → Option State
  | .value outer, t => beginValue outer t
  | .firstItem outer, .endArray => some (deliver (.array []) outer)
  | .firstItem outer, t => beginValue (.array [] :: outer) t
  | .firstName outer, .endObject => some (deliver (.object []) outer)
  | .firstName outer, .string name => some (.colon [] name outer)
  | .nextName members outer, .string name => some (.colon members name outer)
  | .colon members name outer, .colon => some (.value (.object members name :: outer))
  | .afterItem items outer, .comma => some (.value (.array items :: outer))
  | .afterItem items outer, .endArray => some (deliver (.array items.reverse) outer)
  | .afterMember members outer, .comma => some (.nextName members outer)
  | .afterMember members outer, .endObject => some (deliver (.object members) outer)
  | _, _ => none

end JsonReader

/-- The value that a JSON text stands for, if it is one. -/
def Json.read (text : String) : Option Json := do
  let tokens ← JsonToken.all? text.toList
  match ← tokens.foldlM JsonReader.feed JsonReader.start with
  | .done j => some j
  | _ => none

end DocPath
