import DocPath.Path.Text
import DocPath.Scope
import DocPath.Syntax.Parser
import DocPath.Value.Json
import DocPath.Value.Slot

/-!
# Resolving paths

A path is walked from the root of a document. The walk records the key of each step
it takes, because an edit happens one level above the node that a path addresses: in
the container of the last step. It gives up when a step is to be taken out of a node
that does not exist.
-/

namespace DocPath

/-- How far a path has been walked. -/
structure Walk where
  ok : Bool
  /-- the node reached, if it exists -/
  node : Option Value
  /-- the node that the last step was taken from, the root before the first -/
  parent : Value
  lastKey : Option Value
  keys : List Value

namespace Walk

def start (root : Value) : Walk :=
  ⟨true, some root, root, none, []⟩

/-- A step out of an existing node. The event that reports it is left out (see `Event`). -/
def step (w : Walk) (node key : Value) : Walk :=
  ⟨w.ok, node.child? key, node, some key, w.keys ++ [key]⟩

end Walk

mutual

/-- The key that a step stands for. A variable without a binding and a nested path that
leads nowhere stand for null, which addresses nothing. -/
def Segment.keyIn (scope : Scope) (root : Value) : Segment → Value
  | .index key => key.toValue
  | .name name => .string name
  | .variable name => scope.getOr name .null
  | .nested path => (Walk.along scope root path (Walk.start root)).node.getD .null

def Walk.along (scope : Scope) (root : Value) : List Segment → Walk → Walk
  | [], w => w
  | segment :: rest, w =>
    match w.node with
    | none => { w with ok := false }
    | some node => Walk.along scope root rest (w.step node (segment.keyIn scope root))

end

/-- What a path leads to. If the walk gave up, `parent` and `lastKey` are those of the
last step taken, and there is nothing to edit. -/
structure Resolution where
  ok : Bool
  node : Option Value
  parent : Value
  lastKey : Option Value
  path : Path
  resolvedKeys : List Value

namespace Resolution

/-- The keys that lead to `parent`. -/
def parentKeys (r : Resolution) : List Value :=
  r.resolvedKeys.dropLast

/-- The container of the last step, if the walk was finished. -/
def container? (r : Resolution) : Option Value :=
  if r.ok then some r.parent else none

/-- Whether two resolutions have equal contents; values are compared as values. -/
def equals (a b : Resolution) : Bool :=
  let optionEqual : Option Value → Option Value → Bool
    | none, none => true
    | some v, some w => v.equals w
    | _, _ => false
  a.ok = b.ok && optionEqual a.node b.node && a.parent.equals b.parent &&
    optionEqual a.lastKey b.lastKey && a.path = b.path &&
    Value.itemsEqual a.resolvedKeys b.resolvedKeys

/-- A node or key that does not exist has no member. -/
def toJson (r : Resolution) : Json :=
  let optional (name : String) (v : Option Value) : List (String × Json) :=
    (v.map fun v => (name, v.toJson)).toList
  .object (Fields.ofList (
    [("ok", .bool r.ok)] ++ optional "node" r.node ++ [("parent", r.parent.toJson)] ++
    optional "lastKey" r.lastKey ++
    [("path", r.path.toJson), ("resolvedKeys", .array (Value.toItems r.resolvedKeys))]))

end Resolution

def Path.resolve (path : Path) (scope : Scope) (document : Value) : Resolution :=
  let walk := Walk.along scope document path (Walk.start document)
  ⟨walk.ok, walk.node, walk.parent, walk.lastKey, path, walk.keys⟩

/-! ## Compiled paths -/

/-- A path together with the text it was parsed from. Diagnostics show the text as it was
given. -/
structure CompiledPath where
  source : String
  path : Path
deriving DecidableEq

namespace CompiledPath

def compile (source : String) : Except SyntaxError CompiledPath :=
  (Path.parse source).map (⟨source, ·⟩)

def resolve (p : CompiledPath) (scope : Scope) (document : Value) : Resolution :=
  p.path.resolve scope document

end CompiledPath

end DocPath
