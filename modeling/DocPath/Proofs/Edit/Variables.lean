import Mathlib.Control.Monad.Basic
import DocPath.Edit.Basic

/-!
# What is seen of a scope

A path looks up the variables that it mentions, in its own steps and in those of its nested paths at
every depth (`Path.variables`). It asks for nothing else, and it cannot tell a variable that is not
bound from one that is bound to null. So two scopes that agree on these variables lead a walk by the
same keys (`Walk.along_congr`), however many frames they have and whatever else they bind, and an edit,
which knows its scope by the resolution of its path only, does the same in both
(`Edit.sees_mentioned_variables_only`).
-/

namespace DocPath

mutual

/-- The variables that a step mentions, at every depth. -/
def Segment.variables : Segment → List String
  | .variable name => [name]
  | .nested path => Path.variables path
  | .index _ | .name _ => []

def Path.variables : Path → List String
  | [] => []
  | segment :: rest => segment.variables ++ Path.variables rest

end

/-- Two scopes give the same answer for each of the names, that of a name without a binding being
null. -/
def Scope.AgreeOn (s s' : Scope) (names : List String) : Prop :=
  ∀ name ∈ names, (s.get? name).getD .null = (s'.get? name).getD .null

theorem Scope.AgreeOn.append {s s' : Scope} {names more : List String}
    (h : s.AgreeOn s' (names ++ more)) : s.AgreeOn s' names ∧ s.AgreeOn s' more :=
  List.forall_mem_append.mp h

/-! ## Walks -/

mutual

theorem Segment.keyIn_congr {s s' : Scope} (root : Value) (segment : Segment)
    (h : s.AgreeOn s' segment.variables) : segment.keyIn s root = segment.keyIn s' root := by
  match segment, h with
  | .index key, _ | .name name, _ => simp only [Segment.keyIn]
  | .variable name, h =>
      rw [Segment.keyIn, Segment.keyIn]
      exact h name (List.mem_singleton_self name)
  | .nested path, h =>
      -- a nested path starts again at the root, in the same scope
      rw [Segment.keyIn, Segment.keyIn, Walk.along_congr root path h]

theorem Walk.along_congr {s s' : Scope} (root : Value) (path : Path)
    (h : s.AgreeOn s' path.variables) (w : Walk) :
    Walk.along s root path w = Walk.along s' root path w := by
  match path, h with
  | [], _ => rw [Walk.along, Walk.along]
  | segment :: rest, h =>
      obtain ⟨hsegment, hrest⟩ := Scope.AgreeOn.append h
      rw [Walk.along, Walk.along]
      cases w.node with
      | none => rfl
      | some node =>
          simp only [Segment.keyIn_congr root segment hsegment, Walk.along_congr root rest hrest]

end

theorem Path.resolve_congr {s s' : Scope} {path : Path} (h : s.AgreeOn s' path.variables)
    (document : Value) : path.resolve s document = path.resolve s' document := by
  simp only [resolve, Walk.along_congr document path h]

/-! ## Edits -/

namespace Edit

variable {path : CompiledPath} {s s' : Scope} {document : Value}

/-- An edit knows its scope by the resolution of its path only. -/
theorem apply_congr (h : path.resolve s document = path.resolve s' document) (e : Edit) :
    e.apply document path s = e.apply document path s' := by
  cases e with
  | add value => simp only [apply, addValue, h]
  | append value => simp only [apply, appendValue, h]
  | setField value => simp only [apply, setValue, h]
  | remove => simp only [apply, removeValue, h]

/-- **A path sees the variables that it mentions, and nothing else of its scope.** In two scopes that
agree on these variables, a variable without a binding being as good as one bound to null, the path is
resolved alike in every document, and every edit has the same outcome and leaves the same document. -/
theorem sees_mentioned_variables_only (path : CompiledPath) (s s' : Scope)
    (hagree : s.AgreeOn s' path.path.variables) (document : Value) :
    let r := path.resolve s document
    let r' := path.resolve s' document
    (r.ok = r'.ok ∧ r.node = r'.node ∧ r.parent = r'.parent ∧ r.lastKey = r'.lastKey ∧
      r.resolvedKeys = r'.resolvedKeys) ∧
    ∀ e : Edit, e.apply document path s = e.apply document path s' := by
  intro r r'
  have hresolve : r = r' := Path.resolve_congr hagree document
  exact ⟨hresolve ▸ ⟨rfl, rfl, rfl, rfl, rfl⟩, apply_congr hresolve⟩

/-- A scope of two frames, of which the inner one shadows the outer one, and a scope of one frame. They
agree on a variable in a nested path, which is bound two frames out, and on the last one, which is bound
to null in one of them and not at all in the other. -/
theorem sees_mentioned_variables_only_shadowed :
    let path : CompiledPath := ⟨"[k[$i]][$j]", [.nested [.name "k", .variable "i"], .variable "j"]⟩
    let s := Scope.inside [("x", .integer 1)] (.inside [("i", .integer 0)]
      (.outermost [("i", .string "shadowed")]))
    let s' := Scope.outermost [("i", .integer 0), ("j", .null), ("x", .integer 2)]
    let document := Value.object [("a", .array [.boolean true]), ("k", .array [.string "a"])]
    CompiledPath.compile path.source = .ok path ∧ s.AgreeOn s' path.path.variables ∧
    (path.resolve s document).parent = .array [.boolean true] ∧
    (path.resolve s document).resolvedKeys = (path.resolve s' document).resolvedKeys ∧
    ∀ e : Edit, e.apply document path s = e.apply document path s' := by
  intro path s s' document
  have hagree : s.AgreeOn s' path.path.variables := by
    intro name hname
    have hnames : path.path.variables = ["i", "j"] := rfl
    rw [hnames, List.mem_cons, List.mem_singleton] at hname
    rcases hname with rfl | rfl <;> rfl
  obtain ⟨⟨-, -, -, -, hkeys⟩, hedits⟩ := sees_mentioned_variables_only path s s' hagree document
  exact ⟨by decide +kernel, hagree, by rfl, hkeys, hedits⟩

end Edit

end DocPath
