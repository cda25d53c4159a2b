import DocPath.Cache
import DocPath.Edit.Basic

/-!
# Models

A document together with the cache of the paths that address it. Each operation has a
scope of its own, made of the bindings it is given; nothing but the document and the
cache is kept from one to the next.
-/

namespace DocPath

structure Model where
  document : Value
  cache : PathCache

/-- The result of an operation on a model, the model after it, and what was reported. -/
structure ModelStep (α : Type) where
  result : α
  model : Model
  events : List Event

namespace Model

def ofDocument (document : Value) : Model :=
  ⟨document, .empty⟩

/-- A model of the empty object. -/
def empty : Model :=
  ofDocument (.object [])

/-- Looks a path up without changing the document. -/
def lookup (m : Model) (path : String) (bindings : Bindings) :
    ModelStep (Except SyntaxError Resolution) :=
  match m.cache.compile path with
  | (.ok compiled, cache, events) =>
    ⟨.ok (compiled.resolve (.outermost bindings) m.document), { m with cache }, events⟩
  | (.error e, cache, events) => ⟨.error e, { m with cache }, events⟩

/-- The node that a path leads to, if it exists. -/
def get (m : Model) (path : String) (bindings : Bindings) :
    ModelStep (Except SyntaxError (Option Value)) :=
  let step := m.lookup path bindings
  ⟨step.result.map (·.node), step.model, step.events⟩

/-- Edits the document at a path. -/
def edit (m : Model) (path : String) (e : Edit) (bindings : Bindings) :
    ModelStep (Except SyntaxError Outcome) :=
  match m.cache.compile path with
  | (.ok compiled, cache, events) =>
    let edited := e.apply m.document compiled (.outermost bindings)
    ⟨.ok edited.outcome, ⟨edited.document, cache⟩, events ++ edited.events⟩
  | (.error e, cache, events) => ⟨.error e, { m with cache }, events⟩

end Model

end DocPath
