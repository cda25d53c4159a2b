import DocPath.Edit.Outcome
import DocPath.Syntax.Basic

/-!
# Failures of commands
-/

namespace DocPath.CommandLine

/-- The edit that a command asks for. -/
inductive Verb where
  | add
  | append
  | setField
  | remove
deriving DecidableEq

namespace Verb

def name : Verb → String
  | .add => "add"
  | .append => "append"
  | .setField => "set-field"
  | .remove => "remove"

def all : List Verb :=
  [.add, .append, .setField, .remove]

def ofName? (name : String) : Option Verb :=
  all.find? fun verb => verb.name = name

end Verb

inductive Failure where
  | syntaxError (e : SyntaxError)
  | invalidJson
  | io (description : String)
  | noInput
  | invalidBinding (pair : String)
  | missingValue (verb : Verb)
  | rejected (e : StructuralError)

namespace Failure

/-- Bytes that are no text. -/
def notText : Failure :=
  .io "stream did not contain valid UTF-8"

def message : Failure → String
  | .syntaxError e => "Parse error: " ++ e.message
  | .invalidJson => "Invalid JSON"
  | .io description => "IO error: " ++ description
  | .noInput => "No input provided. Use --input or pipe JSON to stdin."
  | .invalidBinding pair => "Invalid binding '" ++ pair ++ "': expected name=JSON"
  | .missingValue verb => "'" ++ verb.name ++ "' needs a value argument"
  | .rejected e => "Rejected: " ++ e.message

end Failure

end DocPath.CommandLine
