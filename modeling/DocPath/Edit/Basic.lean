import DocPath.Event
import DocPath.Resolution

/-!
# Edits

The four edits of a document. Each resolves its path and decides by what it finds there;
then it opens the slot of the container by the recorded keys, and decides again by what
is in the slot. An edit that is rejected or ignored leaves the document as it was.
-/

namespace DocPath

/-- What an edit did, the document after it, and what was reported. -/
structure Edited where
  outcome : Outcome
  document : Value
  events : List Event

inductive Edit where
  /-- Writes a field of an object. -/
  | add (value : Value)
  /-- Puts a value at the end of the list addressed. -/
  | append (value : Value)
  /-- Writes a field of an object or an item of a list. -/
  | setField (value : Value)
  /-- Deletes a field of an object or an item of a list. -/
  | remove

namespace Edit

def rejected (document : Value) (path : CompiledPath) (fault : StructuralFault) : Edited :=
  let error : StructuralError := ⟨path.source, fault⟩
  ⟨.rejected error, document, [.editRejected error]⟩

def ignored (document : Value) (events : List Event) : Edited :=
  ⟨.ignored, document, events⟩

/-- A field is written. It is reported by its name, whatever the key was. -/
def writeField (fill : Value → Value) (fields : Fields Value) (name : String) (value : Value) :
    Edited :=
  ⟨if fields.has name then .overwritten (.string name) else .created (.string name),
    fill (.object (fields.put name value)), []⟩

/-! ## Add -/

/-- The name of the field to be written, if the container is an object. -/
def addTarget (r : Resolution) : Except StructuralFault String :=
  match r.container? with
  | some (.array _) => .error (.addToList r.lastKey)
  | none | some .null => .error (.addToUndefined r.lastKey)
  | some (.object _) =>
    match r.lastKey.bind Value.fieldName? with
    | some name => .ok name
    | none => .error (.invalidKey r.lastKey)
  | some other => .error (.notAContainer r.lastKey other)

def addIn (document : Value) (slot : Option Slot) (name : String) (value : Value) : Edited :=
  match slot with
  | some ⟨.object fields, fill⟩ => writeField fill fields name value
  | _ => ignored document []

def addValue (document : Value) (path : CompiledPath) (value : Value) (scope : Scope) : Edited :=
  let r := path.resolve scope document
  match addTarget r with
  | .error fault => rejected document path fault
  | .ok name => addIn document (document.slot? r.parentKeys) name value

/-! ## Append -/

def appendIn (document : Value) (slot : Option Slot) (value : Value) : Edited :=
  match slot with
  | some ⟨.array items, fill⟩ =>
    ⟨.appended items.length, fill (.array (items ++ [value])), []⟩
  | _ => ignored document []

/-- Unlike the other edits, this one changes the node itself and not its container. -/
def appendValue (document : Value) (path : CompiledPath) (value : Value) (scope : Scope) :
    Edited :=
  let r := path.resolve scope document
  match if r.ok then r.node else none with
  | some (.array _) => appendIn document (document.slot? r.resolvedKeys) value
  | node => rejected document path (.appendToNonList node)

/-! ## Set -/

/-- The most nulls that are put between the end of a list and an item written behind it. -/
def maxPadding : Nat := 1024

/-- An item is written over, or behind the end of the list with nulls in between. -/
def writeItem (fill : Value → Value) (items : List Value) (key : Value) (i : Nat) (value : Value) :
    Edited :=
  if i < items.length then ⟨.overwritten key, fill (.array (items.set i value)), []⟩
  else
    ⟨.created key,
      fill (.array (items ++ List.replicate (i - items.length) .null ++ [value])), []⟩

/-- What is wrong with a key for a container that is neither missing nor falsy. -/
def setFault? (key : Option Value) : Value → Option StructuralFault
  | .object _ => if (key.bind Value.fieldName?).isNone then some (.invalidKey key) else none
  | .array items =>
    match key.bind Value.index? with
    | some i => if maxPadding < i - items.length then some (.invalidIndex key items.length) else none
    | none => some (.invalidIndex key items.length)
  | other => some (.notAContainer key other)

def setIn (document : Value) (slot : Option Slot) (key value : Value) : Edited :=
  match slot with
  | some ⟨.object fields, fill⟩ =>
    match key.fieldName? with
    | some name => writeField fill fields name value
    | none => ignored document []
  | some ⟨.array items, fill⟩ =>
    match key.index? with
    | some i => writeItem fill items key i value
    | none => ignored document []
  | _ => ignored document []

/-- A container that is missing or falsy is passed over in silence. -/
def setValue (document : Value) (path : CompiledPath) (value : Value) (scope : Scope) : Edited :=
  let r := path.resolve scope document
  match r.container?.filter Value.isTruthy with
  | none => ignored document [.targetAbsent path.source]
  | some container =>
    match setFault? r.lastKey container, r.lastKey with
    | some fault, _ => rejected document path fault
    | none, none => ignored document []
    | none, some key => setIn document (document.slot? r.parentKeys) key value

/-! ## Remove -/

/-- The nearest integer that 64 bits with a sign hold. -/
def clampInt64 (n : Int) : Int :=
  (Int64.ofIntClamp n).toInt

/-- The position that a key denotes in a list of the given length when an item is to be
removed: any number counts, truncated toward zero; negative ones count from the end and
stop at the start. -/
def removalIndex? (key : Value) (length : Nat) : Option Nat :=
  let position (n : Int) : Nat := if 0 ≤ n then n.toNat else length - n.natAbs
  match key with
  | .integer n => some (position n.toInt)
  | .float x => x.truncate?.map fun n => position (clampInt64 n)
  | _ => none

/-- The document without an item or a field, if it is there. -/
def without? (slot : Option Slot) (key : Value) : Option Value :=
  match slot with
  | some ⟨.array items, fill⟩ =>
    match removalIndex? key items.length with
    | some i => if i < items.length then some (fill (.array (items.eraseIdx i))) else none
    | none => none
  | some ⟨.object fields, fill⟩ =>
    match key.fieldName? with
    | some name =>
      if Fields.has fields name then some (fill (.object (Fields.erase fields name))) else none
    | none => none
  | _ => none

def removeIn (document : Value) (path : CompiledPath) (slot : Option Slot) (key : Value) : Edited :=
  match without? slot key with
  | some document => ⟨.removed key, document, []⟩
  | none => ignored document [.nothingToRemove path.source]

def removeValue (document : Value) (path : CompiledPath) (scope : Scope) : Edited :=
  let r := path.resolve scope document
  match r.container?, r.lastKey with
  | some (.array items), some key =>
    if (removalIndex? key items.length).isSome then
      removeIn document path (document.slot? r.parentKeys) key
    else rejected document path (.invalidIndex (some key) items.length)
  | some (.array items), none => rejected document path (.invalidIndex none items.length)
  | some (.object _), some key => removeIn document path (document.slot? r.parentKeys) key
  | container, _ => ignored document [.noContainer path.source container]

/-! ## Any edit -/

def apply (e : Edit) (document : Value) (path : CompiledPath) (scope : Scope) : Edited :=
  match e with
  | .add value => addValue document path value scope
  | .append value => appendValue document path value scope
  | .setField value => setValue document path value scope
  | .remove => removeValue document path scope

end Edit

end DocPath
