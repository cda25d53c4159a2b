import DocPath.Edit.Outcome

/-!
# Events

What the library reports while it works, for whoever keeps a log. Every rejected edit is
an error event, and nothing else is.

The steps of a walk are left out. At the finest level each of them is an event too, with its
segment, its key and whether a node was found; its line has a value as a debugger shows it,
and the fields of an object stand there in no fixed order. Nothing depends on these events,
and what they say of the keys is in the resolution (`Resolution.resolvedKeys`).
-/

namespace DocPath

inductive Event where
  | compilingPath (source : String)
  | editRejected (error : StructuralError)
  /-- A field was to be set in a container that is missing or falsy. -/
  | targetAbsent (source : String)
  /-- Something was to be removed from what is no container. -/
  | noContainer (source : String) (found : Option Value)
  /-- Something was to be removed that is not in its container. -/
  | nothingToRemove (source : String)
  | methodReplaced (name : String)
  | methodRegistered (name : String)

inductive EventLevel where
  | error
  | info
  | debug
  | trace
deriving DecidableEq

def EventLevel.name : EventLevel → String
  | .error => "ERROR"
  | .info => "INFO"
  | .debug => "DEBUG"
  | .trace => "TRACE"

namespace Event

def level : Event → EventLevel
  | .editRejected _ => .error
  | .methodReplaced _ => .info
  | .targetAbsent _ => .trace
  | _ => .debug

def message : Event → String
  | .compilingPath _ => "compiling path"
  | .editRejected error => error.message
  | .targetAbsent _ => "set_field target container is absent"
  | .noContainer .. => "nothing to remove"
  | .nothingToRemove _ => "nothing to remove"
  | .methodReplaced _ => "replacing registered method"
  | .methodRegistered _ => "registered method"

/-- The details of an event, by name. -/
def details : Event → List (String × String)
  | .compilingPath source => [("path", source)]
  | .editRejected error => [("kind", error.kind), ("path", error.path)]
  | .targetAbsent source => [("path", source)]
  | .noContainer source found => [("path", source), ("found", StructuralError.typeText found)]
  | .nothingToRemove source => [("path", source)]
  | .methodReplaced name => [("method", name)]
  | .methodRegistered name => [("method", name)]

/-- The line of an event in a log. -/
def line (e : Event) : String :=
  e.details.foldl (fun text (name, value) => text ++ " " ++ name ++ "=" ++ value)
    (e.level.name ++ " " ++ e.message)

end Event

end DocPath
