import DocPath.CommandLine.Error
import DocPath.Model
import DocPath.Text.Basic

/-!
# Commands

What the commands of the command line do, apart from reading their input and printing.
Documents, values and the values of bindings are given as JSON texts.
-/

namespace DocPath.CommandLine

def readValue (text : String) : Except Failure Value :=
  match Value.read text with
  | some v => .ok v
  | none => .error .invalidJson

def readDocument : Option String → Except Failure Value
  | some text => readValue text
  | none => .error .noInput

/-- The name and the value on the sides of the first equals sign. The name must not be
empty. -/
def readBinding (pair : String) : Except Failure (String × Value) :=
  let name := pair.toList.takeWhile (· ≠ '=')
  match pair.toList.dropWhile (· ≠ '=') with
  | '=' :: json =>
    match Value.read (String.ofList json) with
    | some v => if name = [] then .error (.invalidBinding pair) else .ok (String.ofList name, v)
    | none => .error (.invalidBinding pair)
  | _ => .error (.invalidBinding pair)

/-- Of two bindings of one name the later wins. -/
def readBindings (pairs : List String) : Except Failure Bindings :=
  (pairs.mapM readBinding).map Fields.ofList

/-! ## Parsing lines -/

structure ParsedLine where
  text : String
  result : Except SyntaxError Path

/-- The path of each line that is not blank. -/
def parseLines (input : ByteArray) : Except Failure (List ParsedLine) :=
  match String.fromUTF8? input with
  | none => .error .notText
  | some text =>
    .ok (((Text.lines text).filter fun line => !Text.isBlankLine line).map fun line =>
      ⟨line, Path.parse line⟩)

/-! ## Resolving -/

structure ResolveOptions where
  path : String
  input : Option String
  bindings : List String

/-- The resolution of a path in a document, as JSON. -/
def resolve (o : ResolveOptions) : Except Failure Json := do
  let bindings ← readBindings o.bindings
  let document ← readDocument o.input
  match ((Model.ofDocument document).lookup o.path bindings).result with
  | .ok resolution => pure resolution.toJson
  | .error e => throw (.syntaxError e)

/-! ## Editing -/

structure MutateOptions where
  verb : Verb
  path : String
  value : Option String
  input : Option String
  bindings : List String

/-- The edit that a verb stands for. Only removing needs no value. -/
def readEdit : Verb → Option String → Except Failure Edit
  | .remove, _ => .ok .remove
  | verb, none => .error (.missingValue verb)
  | .add, some text => (readValue text).map .add
  | .append, some text => (readValue text).map .append
  | .setField, some text => (readValue text).map .setField

/-- What an edit did, and the document after it. -/
structure Mutated where
  outcome : Outcome
  document : Json

def mutate (o : MutateOptions) : Except Failure Mutated := do
  let bindings ← readBindings o.bindings
  let edit ← readEdit o.verb o.value
  let document ← readDocument o.input
  let step := (Model.ofDocument document).edit o.path edit bindings
  match step.result with
  | .ok outcome => pure ⟨outcome, step.model.document.toJson⟩
  | .error e => throw (.syntaxError e)

end DocPath.CommandLine
