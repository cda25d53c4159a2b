import DocPath.Value.Basic

/-!
# Scopes

A scope is a chain of frames of variable bindings. A name is looked up from the
innermost frame outwards; a frame that binds it to null still binds it.
-/

namespace DocPath

abbrev Bindings := Fields Value

inductive Scope where
  | outermost (bindings : Bindings)
  | inside (bindings : Bindings) (parent : Scope)

namespace Scope

def empty : Scope :=
  .outermost []

/-- A frame over some bindings, inside another scope if there is one. -/
def ofBindings (bindings : Bindings) : Option Scope → Scope
  | none => .outermost bindings
  | some parent => .inside bindings parent

/-- An empty frame inside a scope. -/
def push (s : Scope) : Scope :=
  .inside [] s

/-- The frames, the innermost first. -/
def frames : Scope → List Bindings
  | .outermost bindings => [bindings]
  | .inside bindings parent => bindings :: parent.frames

def get? (name : String) : Scope → Option Value
  | .outermost bindings => bindings.get? name
  | .inside bindings parent => (bindings.get? name).orElse fun _ => parent.get? name

def getOr (s : Scope) (name : String) (default : Value) : Value :=
  (s.get? name).getD default

def binds (s : Scope) (name : String) : Bool :=
  (s.get? name).isSome

/-- Binds a name in the innermost frame; the others stay as they are. -/
def set (s : Scope) (name : String) (v : Value) : Scope :=
  match s with
  | .outermost bindings => .outermost (bindings.put name v)
  | .inside bindings parent => .inside (bindings.put name v) parent

def parent? : Scope → Option Scope
  | .outermost _ => none
  | .inside _ parent => some parent

/-- The number of frames. -/
def depth : Scope → Nat
  | .outermost _ => 1
  | .inside _ parent => parent.depth + 1

end Scope

end DocPath
