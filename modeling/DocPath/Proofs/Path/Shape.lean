import DocPath.Path.Basic
import DocPath.Text.Basic

/-!
# The shape of paths

Any list of steps is a path, but only some paths have a text of their own. The names in a
written path are names of the lexer and its nested paths are not empty (`WellFormed`), and a
nested path that is a variable and nothing else is written like that variable
(`Path.collapse`).
-/

namespace DocPath

/-- A step whose names are names and whose nested paths, at every depth, have steps. -/
inductive Segment.WellFormed : Segment → Prop where
  | index (key : Key) : WellFormed (.index key)
  | name {name : String} (h : Text.IsName name.toList) : WellFormed (.name name)
  | variableName {name : String} (h : Text.IsName name.toList) : WellFormed (.variable name)
  | nested {path : Path} (hne : path ≠ []) (hsteps : ∀ s ∈ path, WellFormed s) :
      WellFormed (.nested path)

def Path.WellFormed (p : Path) : Prop :=
  p ≠ [] ∧ ∀ s ∈ p, s.WellFormed

theorem Segment.wellFormed_variable_iff {name : String} :
    (Segment.variable name).WellFormed ↔ Text.IsName name.toList := by
  constructor
  · intro h
    cases h with
    | variableName hname => exact hname
  · exact .variableName

theorem Segment.wellFormed_nested_iff {path : Path} :
    (Segment.nested path).WellFormed ↔ path.WellFormed := by
  constructor
  · intro h
    cases h with
    | nested hne hsteps => exact ⟨hne, hsteps⟩
  · rintro ⟨hne, hsteps⟩
    exact .nested hne hsteps

theorem Path.wellFormed_singleton_iff {segment : Segment} :
    Path.WellFormed [segment] ↔ segment.WellFormed := by
  rw [Path.WellFormed, List.forall_mem_singleton]
  exact and_iff_right (List.cons_ne_nil _ _)

/-- A path that is one variable and nothing else. -/
def Path.IsLoneVariable (p : Path) : Prop :=
  ∃ name, p = [.variable name]

mutual

/-- The nested paths in a step, at every depth. -/
def Segment.subpaths : Segment → List Path
  | .nested path => path :: Path.subpaths path
  | .index _ | .name _ | .variable _ => []

def Path.subpaths : Path → List Path
  | [] => []
  | segment :: rest => segment.subpaths ++ Path.subpaths rest

end

mutual

/-- Every nested path that is a lone variable becomes that variable. The result may hold
such paths again. -/
def Segment.collapse : Segment → Segment
  | .nested [.variable name] => .variable name
  | .nested path => .nested (Path.collapse path)
  | .index key => .index key
  | .name name => .name name
  | .variable name => .variable name

def Path.collapse : Path → Path
  | [] => []
  | segment :: rest => segment.collapse :: Path.collapse rest

end

theorem Segment.collapse_nested {path : Path} (h : ¬path.IsLoneVariable) :
    (Segment.nested path).collapse = .nested path.collapse := by
  rw [Segment.collapse]
  rintro name rfl
  exact h ⟨name, rfl⟩

mutual

theorem Segment.collapse_eq_self_iff (s : Segment) :
    s.collapse = s ↔ ∀ q ∈ s.subpaths, ¬q.IsLoneVariable := by
  match s with
  | .index key | .name name | .variable name => exact iff_of_true rfl nofun
  | .nested path =>
      have ih := Path.collapse_eq_self_iff path
      -- a lone variable changes into something that is no nested path
      by_cases hlone : Path.IsLoneVariable path
      · obtain ⟨name, rfl⟩ := hlone
        refine iff_of_false nofun fun h => ?_
        exact h [.variable name] List.mem_cons_self ⟨name, rfl⟩
      · rw [Segment.collapse_nested hlone, Segment.nested.injEq, ih, Segment.subpaths,
          List.forall_mem_cons]
        exact (and_iff_right hlone).symm

/-- Exactly the paths without a lone variable inside stay as they are. -/
theorem Path.collapse_eq_self_iff (p : Path) :
    p.collapse = p ↔ ∀ q ∈ p.subpaths, ¬q.IsLoneVariable := by
  match p with
  | [] => exact iff_of_true rfl nofun
  | segment :: rest =>
      rw [Path.collapse, List.cons.injEq, Segment.collapse_eq_self_iff segment,
        Path.collapse_eq_self_iff rest, Path.subpaths, List.forall_mem_append]

end

end DocPath
