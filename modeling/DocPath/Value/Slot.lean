import DocPath.Value.Basic

/-!
# Slots

A key addresses a child of a value: a field of an object or an item of a list. A list of
keys, followed from the root of a document, addresses a slot. `Value.find?` reads what
is in a slot, `Value.slot?` opens it for writing; neither makes a new one.
-/

namespace DocPath

/-- A slot open for writing: the value in it, and the document that there is for each
value that takes its place. -/
structure Slot where
  held : Value
  fill : Value → Value

namespace Value

/-! ## Reading -/

/-- Only objects and lists have children. -/
def child? (v key : Value) : Option Value :=
  match v with
  | .object fields => key.fieldName?.bind (Fields.get? fields)
  | .array items => key.index?.bind (items[·]?)
  | _ => none

/-- The value in a slot. -/
def find? (doc : Value) : List Value → Option Value
  | [] => some doc
  | key :: keys => (doc.child? key).bind (find? · keys)

/-! ## Writing -/

/-- The slot of a child that is there. -/
def childSlot? (v key : Value) : Option Slot :=
  match v with
  | .object fields =>
    key.fieldName?.bind fun name => (Fields.get? fields name).map fun held =>
      ⟨held, fun w => .object (Fields.replace fields name w)⟩
  | .array items =>
    key.index?.bind fun i => items[i]?.map fun held => ⟨held, fun w => .array (items.set i w)⟩
  | _ => none

end Value

/-- The slot of a child of what is in a slot. -/
def Slot.inner? (s : Slot) (key : Value) : Option Slot :=
  (s.held.childSlot? key).map fun inner => ⟨inner.held, fun w => s.fill (inner.fill w)⟩

namespace Value

/-- The slot that the keys lead to, opened one step at a time. -/
def slot? (doc : Value) (keys : List Value) : Option Slot :=
  keys.foldlM Slot.inner? ⟨doc, id⟩

/-- The document with another value in a slot. -/
def replace? (doc : Value) (keys : List Value) (v : Value) : Option Value :=
  (doc.slot? keys).map (·.fill v)

end Value

end DocPath
