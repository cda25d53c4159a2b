import Mathlib.Control.Monad.Basic
import Mathlib.Logic.Function.Basic
import DocPath.Scope

/-!
# Scopes as stacks of maps

The independent state is a stack of maps from names to values, the innermost frame first: a frame is
entered by putting a map on the stack and left by taking it off, and a name is bound in the first map. A
chain of scopes does the same (`Scope.view_act?`), and it looks names up as one does in the stack: in the
first map that has the name, null or not (`Scope.answers_view`).

The last frame is never left: who leaves it has no chain any more. Actions that leave each frame they
enter and bind names in these frames only give back the chain that they found (`Scope.run?_of_balanced`).
-/

namespace DocPath.Scope

/-- What is done to a chain. -/
inductive Action where
  | set (name : String) (v : Value)
  | push
  | pushBindings (bindings : Bindings)
  | pop

/-! ## Chains and stacks -/

/-- The chain after an action. There is none if the outermost frame is left. -/
def act? (s : Scope) : Action → Option Scope
  | .set name v => some (s.set name v)
  | .push => some s.push
  | .pushBindings bindings => some (ofBindings bindings (some s))
  | .pop => s.parent?

def run? (s : Scope) (actions : List Action) : Option Scope :=
  actions.foldlM act? s

abbrev Frame := String → Option Value

/-- Maps from names to values, that of the innermost frame first. -/
abbrev Stack := List Frame

namespace Stack

def act? : Stack → Action → Option Stack
  | frame :: outer, .set name v => some (Function.update frame name (some v) :: outer)
  | [], .set _ _ => none
  | stack, .push => some ((fun _ => none) :: stack)
  | stack, .pushBindings bindings => some (bindings.get? :: stack)
  | _ :: next :: outer, .pop => some (next :: outer)
  | _, .pop => none

def run? (stack : Stack) (actions : List Action) : Option Stack :=
  actions.foldlM act? stack

end Stack

/-- The maps of the frames. -/
def view (s : Scope) : Stack :=
  s.frames.map Fields.get?

theorem get?_put_eq_update (bindings : Bindings) (name : String) (v : Value) :
    (bindings.put name v).get? = Function.update bindings.get? name (some v) := by
  funext n
  rw [Fields.get?_put, Function.update_apply]

/-- An action does to the maps what it does to the chain. -/
theorem view_act? (s : Scope) (a : Action) : (s.act? a).map view = s.view.act? a := by
  cases a with
  | set name v =>
      cases s with
      | outermost bindings | inside bindings parent =>
          simp [act?, set, view, frames, Stack.act?, get?_put_eq_update]
  | push => cases s <;> rfl
  | pushBindings bindings => cases s <;> rfl
  | pop =>
      cases s with
      | outermost bindings => rfl
      | inside bindings parent => cases parent <;> rfl

theorem view_run? (s : Scope) (actions : List Action) :
    (s.run? actions).map view = s.view.run? actions := by
  induction actions generalizing s with
  | nil => rfl
  | cons a rest ih =>
      rw [run?, Stack.run?, List.foldlM_cons, List.foldlM_cons, ← view_act?]
      cases s.act? a with
      | none => rfl
      | some s' => exact ih s'

/-! ## Looking names up -/

/-- A chain gives the answers of a stack of maps: the binding in the first map that has the name, and the
default if none of them has it. -/
structure Answers (s : Scope) (stack : Stack) : Prop where
  get?_eq_some : ∀ name v, s.get? name = some v ↔
    ∃ inner frame outer, stack = inner ++ frame :: outer ∧ frame name = some v ∧
      ∀ f ∈ inner, f name = none
  get?_eq_none : ∀ name, s.get? name = none ↔ ∀ frame ∈ stack, frame name = none
  getOr_of_bound : ∀ name v default, s.get? name = some v → s.getOr name default = v
  getOr_of_unbound : ∀ name default, (∀ frame ∈ stack, frame name = none) →
    s.getOr name default = default
  binds_iff : ∀ name, s.binds name = true ↔ ∃ v, s.get? name = some v
  depth_eq : s.depth = stack.length

theorem get?_eq_findSome? (s : Scope) (name : String) :
    s.get? name = s.view.findSome? (· name) := by
  induction s with
  | outermost bindings =>
      cases h : bindings.get? name <;> simp [get?, view, frames, h]
  | inside bindings parent ih =>
      cases h : bindings.get? name <;> simp_all [get?, view, frames]

theorem depth_eq_length (s : Scope) : s.depth = s.view.length := by
  induction s with
  | outermost bindings => rfl
  | inside bindings parent ih => exact congrArg (· + 1) ih

theorem get?_eq_none_iff (s : Scope) (name : String) :
    s.get? name = none ↔ ∀ frame ∈ s.view, frame name = none := by
  rw [get?_eq_findSome?, List.findSome?_eq_none_iff]

theorem answers_view (s : Scope) : s.Answers s.view where
  get?_eq_some name v := by
    rw [get?_eq_findSome?, List.findSome?_eq_some_iff]
  get?_eq_none := s.get?_eq_none_iff
  getOr_of_bound name v default h := by
    rw [getOr, h, Option.getD_some]
  getOr_of_unbound name default h := by
    rw [getOr, (s.get?_eq_none_iff name).mpr h, Option.getD_none]
  binds_iff _ := Option.isSome_iff_exists
  depth_eq := s.depth_eq_length

/-! ## Balanced actions -/

/-- Whether the actions leave all frames that they enter, no others, and bind names in these frames only.
So many frames were entered before. -/
def balanced : Nat → List Action → Bool
  | depth, [] => depth = 0
  | depth, .push :: rest => balanced (depth + 1) rest
  | depth, .pushBindings _ :: rest => balanced (depth + 1) rest
  | 0, .set _ _ :: _ => false
  | depth + 1, .set _ _ :: rest => balanced (depth + 1) rest
  | 0, .pop :: _ => false
  | depth + 1, .pop :: rest => balanced depth rest

/-- A chain with more frames inside it. -/
def enclose (s : Scope) (inner : List Bindings) : Scope :=
  inner.foldr inside s

/-- The frames that were entered before are left too. -/
theorem run?_enclose {actions : List Action} (inner : List Bindings)
    (h : balanced inner.length actions = true) (s : Scope) :
    (s.enclose inner).run? actions = some s := by
  induction actions generalizing inner with
  | nil =>
      obtain rfl : inner = [] := List.length_eq_zero_iff.mp (of_decide_eq_true h)
      rfl
  | cons a rest ih =>
      cases a with
      | push => exact ih ([] :: inner) h
      | pushBindings bindings => exact ih (bindings :: inner) h
      | set name v =>
          cases inner with
          | nil => cases h
          | cons bindings inner => exact ih (bindings.put name v :: inner) h
      | pop =>
          cases inner with
          | nil => cases h
          | cons bindings inner => exact ih inner h

theorem run?_of_balanced {actions : List Action} (h : balanced 0 actions = true) (s : Scope) :
    s.run? actions = some s :=
  run?_enclose [] h s

/-- **A chain of scopes is a stack of maps.** Whatever is done to the empty chain, it gives the answers
of the stack to which the same is done, and there is a chain as long as there is a stack. Balanced actions
anywhere on the way leave the chain that they found. -/
theorem chain_is_stack :
    (∀ actions : List Action,
      Option.Rel Answers (empty.run? actions) (Stack.run? [fun _ => none] actions)) ∧
    ∀ before part : List Action, balanced 0 part = true →
      empty.run? (before ++ part) = empty.run? before := by
  constructor
  · intro actions
    have hview : (empty.run? actions).map view = Stack.run? [fun _ => none] actions :=
      view_run? empty actions
    rw [← hview]
    cases empty.run? actions with
    | none => exact .none
    | some s => exact .some s.answers_view
  · intro before part hpart
    rw [run?, List.foldlM_append]
    show (empty.run? before).bind (fun s => s.run? part) = empty.run? before
    cases empty.run? before with
    | none => rfl
    | some s => exact run?_of_balanced hpart s

/-- A loop in a frame where a variable is bound to null: each turn has a frame of its own, in which the
variable is bound again, and none is left behind. -/
theorem chain_is_stack_loop :
    let before : List Action := [.set "x" (.integer 1), .push, .set "x" .null]
    let turn : List Action :=
      [.pushBindings [("i", .integer 0)], .set "x" (.integer 2), .push, .set "i" .null, .pop, .pop]
    balanced 0 (turn ++ turn) = true ∧
    empty.run? (before ++ (turn ++ turn)) = empty.run? before ∧
    ∃ s stack, empty.run? before = some s ∧ Stack.run? [fun _ => none] before = some stack ∧
      s.Answers stack ∧ s.get? "x" = some .null ∧ s.getOr "i" (.integer 7) = .integer 7 ∧
      s.depth = 2 := by
  intro before turn
  obtain ⟨hanswers, hbalanced⟩ := chain_is_stack
  have hturns : balanced 0 (turn ++ turn) = true := rfl
  refine ⟨hturns, hbalanced before (turn ++ turn) hturns, ?_⟩
  have hbefore := hanswers before
  cases hbefore with
  | some h => exact ⟨_, _, rfl, rfl, h, rfl, rfl, rfl⟩

end DocPath.Scope
