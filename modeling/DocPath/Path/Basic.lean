import DocPath.Value.Basic

/-!
# Paths

A path addresses one location in a document, as a list of steps from the root. The key
of a step is written out, taken from a variable, or found in the document itself by a
nested path, which starts again at the root.
-/

namespace DocPath

/-- A literal key in brackets. -/
inductive Key where
  | int (n : Int64)
  | str (s : String)
deriving DecidableEq

def Key.toValue : Key → Value
  | .int n => .integer n
  | .str s => .string s

/-- One step of a path. `name` and a string in `index` resolve alike; they are written
differently. -/
inductive Segment where
  | index (key : Key)
  | name (name : String)
  | variable (name : String)
  | nested (path : List Segment)

abbrev Path := List Segment

mutual

def Segment.decEq : (a b : Segment) → Decidable (a = b)
  | .index j, .index k =>
    if h : j = k then isTrue (congrArg _ h) else isFalse fun e => h (Segment.index.inj e)
  | .name m, .name n =>
    if h : m = n then isTrue (congrArg _ h) else isFalse fun e => h (Segment.name.inj e)
  | .variable m, .variable n =>
    if h : m = n then isTrue (congrArg _ h) else isFalse fun e => h (Segment.variable.inj e)
  | .nested p, .nested q =>
    match Path.decEq p q with
    | isTrue h => isTrue (congrArg _ h)
    | isFalse h => isFalse fun e => h (Segment.nested.inj e)
  | .index _, .name _ | .index _, .variable _ | .index _, .nested _
  | .name _, .index _ | .name _, .variable _ | .name _, .nested _
  | .variable _, .index _ | .variable _, .name _ | .variable _, .nested _
  | .nested _, .index _ | .nested _, .name _ | .nested _, .variable _ =>
    isFalse nofun

def Path.decEq : (p q : List Segment) → Decidable (p = q)
  | [], [] => isTrue rfl
  | [], _ :: _ => isFalse nofun
  | _ :: _, [] => isFalse nofun
  | a :: p, b :: q =>
    match Segment.decEq a b, Path.decEq p q with
    | isTrue h, isTrue i => isTrue (h ▸ i ▸ rfl)
    | isFalse h, _ => isFalse fun e => h (List.cons.inj e).1
    | _, isFalse i => isFalse fun e => i (List.cons.inj e).2

end

instance : DecidableEq Segment := Segment.decEq

end DocPath
