import DocPath.Model
import DocPath.Text.Basic

/-!
# Registries of methods

Named methods that a template calls with positional arguments. A host registers methods
of its own beside the standard ones; a later method takes the place of an earlier one of
the same name.
-/

namespace DocPath

inductive MethodError where
  | unknownMethod (name : String)
  | missingArgument (method argument : String) (position : Nat)
  | invalidArgument (method argument expected : String) (found : Value)
  | syntaxError (e : SyntaxError)
  /-- Raised by a method of the host. -/
  | failed (method message : String)

namespace MethodError

def message : MethodError → String
  | .unknownMethod name => "unknown method '" ++ name ++ "'"
  | .missingArgument method argument position =>
    method ++ ": missing argument '" ++ argument ++ "' at position " ++ Numeral.text position
  | .invalidArgument method argument expected found =>
    method ++ ": argument '" ++ argument ++ "' must be " ++ expected ++ ", got " ++ found.typeName
  | .syntaxError e => e.message
  | .failed method message => method ++ ": " ++ message

end MethodError

abbrev Method := Model → List Value → ModelStep (Except MethodError Value)

structure Registry where
  methods : Fields Method

namespace Registry

def empty : Registry :=
  ⟨[]⟩

def has (r : Registry) (name : String) : Bool :=
  r.methods.has name

/-- The names of all methods, in ascending order. -/
def names (r : Registry) : List String :=
  r.methods.names

/-- A method gets a name; the result says whether another one had it before. -/
def register (r : Registry) (name : String) (method : Method) : Bool × Registry × List Event :=
  (r.has name, ⟨r.methods.put name method⟩,
    [if r.has name then .methodReplaced name else .methodRegistered name])

def call (r : Registry) (m : Model) (name : String) (arguments : List Value) :
    ModelStep (Except MethodError Value) :=
  match r.methods.get? name with
  | some method => method m arguments
  | none => ⟨.error (.unknownMethod name), m, []⟩

/-- The registry as diagnostics show it. -/
def description (r : Registry) : String :=
  "MethodRegistry \x7b methods: [" ++ ", ".intercalate (r.names.map Text.quoted) ++ "] \x7d"

end Registry

end DocPath
