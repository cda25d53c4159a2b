import DocPath.Registry.Basic

/-!
# Standard methods

The four edits under the names that templates use, and some methods that a host may
register beside them. The arguments of an edit are its path, its value, unless it
removes, and the bindings, which may be left out. All arguments are checked before the
model is touched.
-/

namespace DocPath

namespace Method

/-! ## Arguments -/

def pathArgument (method : String) : List Value → Except MethodError String
  | .string path :: _ => .ok path
  | other :: _ => .error (.invalidArgument method "path" "a string" other)
  | [] => .error (.missingArgument method "path" 0)

def valueArgument (method : String) (arguments : List Value) (position : Nat) :
    Except MethodError Value :=
  match arguments[position]? with
  | some v => .ok v
  | none => .error (.missingArgument method "value" position)

/-- Null stands for no bindings, and so does no argument. -/
def bindingsArgument (method : String) (arguments : List Value) (position : Nat) :
    Except MethodError Bindings :=
  match arguments[position]? with
  | none | some .null => .ok []
  | some (.object fields) => .ok fields
  | some other => .error (.invalidArgument method "bindings" "an object" other)

/-! ## Edits -/

/-- The path, the edit and the bindings that are called for. -/
structure EditCall where
  path : String
  edit : Edit
  bindings : Bindings

/-- The call of a method that writes a value. -/
def writingCall (method : String) (edit : Value → Edit) (arguments : List Value) :
    Except MethodError EditCall := do
  let path ← pathArgument method arguments
  let value ← valueArgument method arguments 1
  let bindings ← bindingsArgument method arguments 2
  pure ⟨path, edit value, bindings⟩

def removingCall (method : String) (arguments : List Value) : Except MethodError EditCall := do
  let path ← pathArgument method arguments
  let bindings ← bindingsArgument method arguments 1
  pure ⟨path, .remove, bindings⟩

/-- A method reports whether the document was changed. -/
def ofCall (call : List Value → Except MethodError EditCall) : Method := fun m arguments =>
  match call arguments with
  | .error e => ⟨.error e, m, []⟩
  | .ok c =>
    let step := m.edit c.path c.edit c.bindings
    let result := match step.result with
      | .ok outcome => .ok (.boolean outcome.isApplied)
      | .error e => .error (.syntaxError e)
    ⟨result, step.model, step.events⟩

/-!
## Methods of a host

A host may register any function of a model and arguments. These stand for the ways in
which such a method can differ from an edit: it may leave the model alone and return or
fail, look at its arguments without checking them, edit at a place of its own, or put
another document in the place of the old one.
-/

/-- Always returns the same value. -/
def constant (v : Value) : Method := fun m _ =>
  ⟨.ok v, m, []⟩

def failing (method message : String) : Method := fun m _ =>
  ⟨.error (.failed method message), m, []⟩

/-- Returns the number of its arguments. -/
def argumentCount : Method := fun m arguments =>
  ⟨.ok (.integer (Int64.ofNat arguments.length)), m, []⟩

/-- Appends its first argument, or null, to one list. -/
def appendingTo (path : String) : Method :=
  ofCall fun arguments => .ok ⟨path, .append (arguments.headD .null), []⟩

/-- Starts over with an empty object and returns the old document. -/
def reset : Method := fun m _ =>
  ⟨.ok m.document, { m with document := .object [] }, []⟩

end Method

namespace Registry

def addName : String := "$add"

def appendName : String := "$append"

def setFieldName : String := "$setField"

def removeName : String := "$remove"

/-- The registry of the four edits. -/
def standard : Registry :=
  ⟨Fields.ofList [
    (addName, Method.ofCall (Method.writingCall addName .add)),
    (appendName, Method.ofCall (Method.writingCall appendName .append)),
    (setFieldName, Method.ofCall (Method.writingCall setFieldName .setField)),
    (removeName, Method.ofCall (Method.removingCall removeName))]⟩

end Registry

end DocPath
