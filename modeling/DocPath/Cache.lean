import DocPath.Event
import DocPath.Resolution

/-!
# The path cache

Remembers compiled paths by their exact text; two texts of one path are two entries.
Nothing is ever evicted. A text that does not parse is not remembered, so it is parsed
again each time.
-/

namespace DocPath

structure PathCache where
  entries : Fields CompiledPath
  hits : Nat
  /-- Every miss is one parse. -/
  misses : Nat

namespace PathCache

def empty : PathCache :=
  ⟨[], 0, 0⟩

def holds (c : PathCache) (source : String) : Bool :=
  c.entries.has source

def size (c : PathCache) : Nat :=
  c.entries.length

/-- The compiled path of a text, the cache that remembers it, and what was reported. -/
def compile (c : PathCache) (source : String) :
    Except SyntaxError CompiledPath × PathCache × List Event :=
  match c.entries.get? source with
  | some path => (.ok path, { c with hits := c.hits + 1 }, [])
  | none =>
    let c := { c with misses := c.misses + 1 }
    match CompiledPath.compile source with
    | .ok path =>
      (.ok path, { c with entries := c.entries.put source path }, [.compilingPath source])
    | .error e => (.error e, c, [.compilingPath source])

/-- Forgets all paths and starts counting anew. -/
def clear (_c : PathCache) : PathCache :=
  empty

end PathCache

end DocPath
