import DocPath.Syntax.Basic

/-!
# Paths under construction

The grammar of paths as a machine that takes one token after the other:

* a path is a head and any number of further steps;
* the head is a name, a variable or a step in brackets;
* a further step is a dot with a name, a natural number or a variable behind it, or a
  step in brackets;
* brackets hold an integer, a string, or a path that starts with a name, a variable or
  brackets; a variable alone in brackets is no nested path but the variable itself.

A machine that has read part of a path holds the paths that are open, one inside the
other, and knows what may come next.
-/

namespace DocPath

/-- Where in a path the next token stands. -/
inductive Spot where
  /-- at the start of a path -/
  | head
  /-- behind a complete step -/
  | afterStep
  /-- behind a dot -/
  | afterDot
  /-- behind an opening bracket -/
  | inBrackets
  /-- behind a literal key in brackets -/
  | afterKey (key : Key)
  /-- behind a variable in brackets, which may be the start of a nested path -/
  | afterVariable (name : String)
deriving DecidableEq

/-- The steps read so far of the innermost path, and those of the paths around it, the
innermost of them first. -/
structure PartialPath where
  steps : Path
  outer : List Path
  spot : Spot
deriving DecidableEq

/-- What a token does to a path under construction. -/
inductive Feeding where
  | more (state : PartialPath)
  | complete (path : Path)
  | refused (expected : Expectation)

namespace PartialPath

def start : PartialPath :=
  ⟨[], [], .head⟩

/-- A step is complete. -/
def push (s : PartialPath) (step : Segment) : PartialPath :=
  ⟨s.steps ++ [step], s.outer, .afterStep⟩

/-- A nested path starts, some of its steps being known. -/
def nest (s : PartialPath) (steps : Path) (spot : Spot) : PartialPath :=
  ⟨steps, s.steps :: s.outer, spot⟩

def feedHead (s : PartialPath) : Token → Feeding
  | .identifier name => .more (s.push (.name name))
  | .variable name => .more (s.push (.variable name))
  | .openBracket => .more { s with spot := .inBrackets }
  | _ => .refused .head

def feedStep (s : PartialPath) : Token → Feeding
  | .dot => .more { s with spot := .afterDot }
  | .openBracket => .more { s with spot := .inBrackets }
  | .closeBracket =>
    match s.outer with
    | [] => .refused .endOfInput
    | steps :: outer => .more ⟨steps ++ [.nested s.steps], outer, .afterStep⟩
  | .endOfInput =>
    match s.outer with
    | [] => .complete s.steps
    | _ :: _ => .refused .closeBracket
  | _ => .refused (if s.outer.isEmpty then .endOfInput else .closeBracket)

def feedDotted (s : PartialPath) : Token → Feeding
  | .identifier name => .more (s.push (.name name))
  | .integer n => if 0 ≤ n then .more (s.push (.index (.int n))) else .refused .fieldName
  | .variable name => .more (s.push (.variable name))
  | _ => .refused .fieldName

def feedBrackets (s : PartialPath) : Token → Feeding
  | .integer n => .more { s with spot := .afterKey (.int n) }
  | .string key => .more { s with spot := .afterKey (.str key) }
  | .variable name => .more { s with spot := .afterVariable name }
  | .identifier name => .more (s.nest [.name name] .afterStep)
  | .openBracket => .more (s.nest [] .inBrackets)
  | .dot | .closeBracket | .endOfInput => .refused .bracketContent

def feedKey (s : PartialPath) (key : Key) : Token → Feeding
  | .closeBracket => .more (s.push (.index key))
  | _ => .refused .closeBracket

def feedVariable (s : PartialPath) (name : String) : Token → Feeding
  | .closeBracket => .more (s.push (.variable name))
  | .dot => .more (s.nest [.variable name] .afterDot)
  | .openBracket => .more (s.nest [.variable name] .inBrackets)
  | _ => .refused .closeBracket

def feed (s : PartialPath) (t : Token) : Feeding :=
  match s.spot with
  | .head => s.feedHead t
  | .afterStep => s.feedStep t
  | .afterDot => s.feedDotted t
  | .inBrackets => s.feedBrackets t
  | .afterKey key => s.feedKey key t
  | .afterVariable name => s.feedVariable name t

/-- Whether a token that is used here is taken out of the parser's hands. The others
stay the current token until the next one is read. -/
def takes (s : PartialPath) (t : Token) : Bool :=
  match s.spot with
  | .head => t ≠ .openBracket
  | .inBrackets => t ≠ .openBracket
  | _ => false

/-- No path goes on behind the end of input. -/
theorem feed_endOfInput_ne_more (s s' : PartialPath) : s.feed .endOfInput ≠ .more s' := by
  unfold feed
  split <;> simp [feedHead, feedStep, feedDotted, feedBrackets, feedKey, feedVariable]
  split <;> simp

/-- No token is refused for want of an opening bracket: brackets are never the only thing
that can follow. -/
theorem feed_ne_refused_openBracket (s : PartialPath) (t : Token) :
    s.feed t ≠ .refused .openBracket := by
  unfold feed
  split
  · cases t <;> simp [feedHead]
  · unfold feedStep
    split
    all_goals try split
    all_goals simp
  · unfold feedDotted
    split
    all_goals try split
    all_goals simp
  · cases t <;> simp [feedBrackets]
  · cases t <;> simp [feedKey]
  · cases t <;> simp [feedVariable]

end PartialPath

end DocPath
