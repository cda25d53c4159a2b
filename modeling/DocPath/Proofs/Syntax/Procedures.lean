import DocPath.Proofs.Syntax.Resuming
import DocPath.Proofs.Syntax.Standstill

/-!
# The grammar as procedures

Paths can also be read by procedures that call one another, one for each kind of phrase: `Procedure.path`,
`head`, `tail`, `dotted` and `brackets`. They share a parser, and nothing bounds their calls; a procedure
that would call on for ever has no result. The machine that builds a path token by token keeps the calls
that are still open in its state (`Procedure.resume`). Each token it takes is the next one that these calls
take (`run_resume`), so the procedures end whenever the machine does, with the same path or error and the
same parser left (`run_parse`).
-/

namespace DocPath

/-- A procedure finds something or fails, and leaves a parser behind. It has no result for a parser on
which its calls never come to an end. -/
abbrev Procedure (α : Type) := ExceptT SyntaxError (StateT Parser Option) α

namespace Procedure

variable {α β : Type}

def run (f : Procedure α) (p : Parser) : Option (Except SyntaxError α × Parser) :=
  StateT.run (ExceptT.run f) p

/-! ## What a procedure does with the token in hand -/

def hand : Procedure Token :=
  ExceptT.mk fun p => some (.ok p.current, p)

def advance (taken : Bool) : Procedure Unit :=
  ExceptT.mk fun p => some (p.advance taken)

def refuse (expected : Expectation) : Procedure α :=
  ExceptT.mk fun p => some (.error ⟨p.position, .unexpected expected p.current⟩, p)

def expect (t : Token) (expected : Expectation) : Procedure Unit := do
  if (← hand) = t then advance false else refuse expected

/-! ## The procedures -/

/-- What stands behind a dot. -/
def dotted : Procedure Segment := do
  match ← hand with
  | .identifier name =>
    advance false
    return .name name
  | .integer n =>
    if 0 ≤ n then
      advance false
      return .index (.int n)
    else refuse .fieldName
  | .variable name =>
    advance false
    return .variable name
  | _ => refuse .fieldName

/-- The procedures call one another in this form. -/
abbrev call (f : Procedure α) : Procedure α := f

mutual

def path : Procedure Path := do
  let first ← head.call
  let rest ← tail.call
  return first :: rest
partial_fixpoint

def head : Procedure Segment := do
  match ← hand with
  | .identifier name =>
    advance true
    return .name name
  | .variable name =>
    advance true
    return .variable name
  | .openBracket => brackets.call
  | _ => refuse .head
partial_fixpoint

/-- The steps behind a step. -/
def tail : Procedure Path := do
  match ← hand with
  | .dot =>
    advance false
    let step ← dotted
    let rest ← tail.call
    return step :: rest
  | .openBracket =>
    let step ← brackets.call
    let rest ← tail.call
    return step :: rest
  | _ => return []
partial_fixpoint

/-- A step in brackets. It is called only with the opening bracket in hand, and checks this all the same. -/
def brackets : Procedure Segment := do
  expect .openBracket .openBracket
  let step ← content.call
  expect .closeBracket .closeBracket
  return step
partial_fixpoint

/-- What stands in brackets. A variable stands alone there, or a nested path starts with it. -/
def content : Procedure Segment := do
  match ← hand with
  | .integer n =>
    advance true
    return .index (.int n)
  | .string key =>
    advance true
    return .index (.str key)
  | .variable name =>
    advance true
    if (← hand) = .closeBracket then return .variable name
    else
      let rest ← tail.call
      return .nested (.variable name :: rest)
  | .identifier _ | .openBracket =>
    let inner ← path.call
    return .nested inner
  | .dot | .closeBracket | .endOfInput => refuse .bracketContent
partial_fixpoint

end

/-- A path, with the text at its end behind it. -/
def parse : Procedure Path := do
  let found ← path
  expect .endOfInput .endOfInput
  return found

/-! ## Running -/

@[simp] theorem run_pure (a : α) (p : Parser) : (pure a : Procedure α).run p = some (.ok a, p) := rfl

@[simp] theorem run_refuse (expected : Expectation) (p : Parser) :
    (refuse expected : Procedure α).run p =
      some (.error ⟨p.position, .unexpected expected p.current⟩, p) := rfl

@[simp] theorem run_hand_bind (f : Token → Procedure α) (p : Parser) :
    (hand >>= f).run p = (f p.current).run p := rfl

theorem run_advance_of_eq {taken : Bool} {p p' : Parser} {result : Except SyntaxError Unit}
    (h : p.advance taken = (result, p')) : (advance taken).run p = some (result, p') :=
  congrArg some h

theorem run_bind_of_ok {f : Procedure α} {g : α → Procedure β} {p p' : Parser} {a : α}
    (h : f.run p = some (.ok a, p')) : (f >>= g).run p = (g a).run p' := by
  show (f.run p).bind _ = _
  rw [h]
  rfl

theorem run_bind_of_error {f : Procedure α} {g : α → Procedure β} {p p' : Parser} {e : SyntaxError}
    (h : f.run p = some (.error e, p')) : (f >>= g).run p = some (.error e, p') := by
  show (f.run p).bind _ = _
  rw [h]
  rfl

@[simp] theorem refuse_bind (expected : Expectation) (f : α → Procedure β) :
    refuse expected >>= f = refuse expected := rfl

@[simp] theorem run_expect_bind (t : Token) (expected : Expectation) (f : Unit → Procedure α)
    (p : Parser) :
    (expect t expected >>= f).run p =
      if p.current = t then (advance false >>= f).run p else (refuse expected : Procedure α).run p := by
  rw [expect, bind_assoc, run_hand_bind]
  split
  · rfl
  · rw [refuse_bind]

/-! ## The open calls of a machine -/

/-- The calls that are open around a complete path, the innermost first. -/
def close : Path → List Path → Procedure Path
  | inner, [] => do
    expect .endOfInput .endOfInput
    return inner
  | inner, steps :: outer => do
    expect .closeBracket .closeBracket
    let rest ← tail
    close (steps ++ [.nested inner] ++ rest) outer

/-- The calls that are open behind a step. -/
def further (steps : Path) (outer : List Path) : Procedure Path := do
  let rest ← tail
  close (steps ++ rest) outer

/-- What is still to be read in brackets behind a variable. -/
def afterVariable (name : String) : Procedure Segment := do
  if (← hand) = .closeBracket then return .variable name
  else
    let rest ← tail
    return .nested (.variable name :: rest)

/-- A step, and then the calls that are open behind it. -/
def thenFurther (f : Procedure Segment) (s : PartialPath) : Procedure Path := do
  let step ← f
  further (s.steps ++ [step]) s.outer

/-- What stands in brackets, and then the calls that are open behind them. -/
def thenClose (f : Procedure Segment) (s : PartialPath) : Procedure Path := do
  let step ← f
  expect .closeBracket .closeBracket
  further (s.steps ++ [step]) s.outer

/-- The calls that are open in a state of the machine. -/
def resume (s : PartialPath) : Procedure Path :=
  match s.spot with
  | .head => thenFurther head s
  | .afterStep => further s.steps s.outer
  | .afterDot => thenFurther dotted s
  | .inBrackets => thenClose content s
  | .afterKey key => thenClose (pure (.index key)) s
  | .afterVariable name => thenClose (afterVariable name) s

/-- What the open calls should do with the token in hand, if this is what the machine does with it. -/
def obey (taken : Bool) : Feeding → Procedure Path
  | .more s => do
    advance taken
    resume s
  | .refused expected => refuse expected
  | .complete path => do
    advance false
    return path

open PartialPath

variable {p : Parser}

/-- A nested path is read to its end, and then the path around it is read on. -/
theorem further_cons (inner steps : Path) (outer : List Path) :
    further inner (steps :: outer) = (do
      let rest ← tail
      expect .closeBracket .closeBracket
      further (steps ++ [.nested (inner ++ rest)]) outer) := rfl

/-- A path in brackets is nested in the path around it. -/
theorem thenClose_path (s : PartialPath) :
    thenClose (path >>= fun inner => pure (.nested inner)) s = thenFurther head (s.nest [] .head) := by
  simp only [thenClose, thenFurther, path, nest, further_cons, bind_assoc, pure_bind, List.nil_append,
    List.singleton_append]

/-! One lemma for each spot: the call that is open there does with every token what the machine does. -/

theorem run_close (steps : Path) (outer : List Path) (hdot : p.current ≠ .dot)
    (hbracket : p.current ≠ .openBracket) :
    (close steps outer).run p = (obey false (feedStep ⟨steps, outer, .afterStep⟩ p.current)).run p := by
  cases outer with
  | nil =>
      rw [close, run_expect_bind]
      cases ht : p.current <;> simp_all [feedStep, obey]
  | cons around outer =>
      rw [close, run_expect_bind]
      cases ht : p.current <;> simp_all [feedStep, obey, resume, further]

theorem run_further (steps : Path) (outer : List Path) (p : Parser) :
    (further steps outer).run p =
      (obey false (feedStep ⟨steps, outer, .afterStep⟩ p.current)).run p := by
  rw [further, tail]
  cases ht : p.current with
  | dot => simp [ht, feedStep, obey, resume, thenFurther, further]
  | openBracket => simp [ht, brackets, feedStep, obey, resume, thenClose, further]
  | _ =>
      simp only [bind_assoc, run_hand_bind, ht, pure_bind, List.append_nil]
      rw [run_close _ _ (by simp [ht]) (by simp [ht]), ht]

theorem run_head (s : PartialPath) (p : Parser) :
    (thenFurther head s).run p = (obey (p.current ≠ .openBracket) (s.feedHead p.current)).run p := by
  rw [thenFurther, head]
  cases ht : p.current <;> simp [ht, brackets, feedHead, push, obey, resume, thenClose]

theorem run_dotted (s : PartialPath) (p : Parser) :
    (thenFurther dotted s).run p = (obey false (s.feedDotted p.current)).run p := by
  rw [thenFurther, dotted]
  cases ht : p.current with
  | integer n => by_cases hn : 0 ≤ n <;> simp [ht, hn, feedDotted, push, obey, resume]
  | _ => simp [ht, feedDotted, push, obey, resume]

theorem run_content (s : PartialPath) (p : Parser) :
    (thenClose content s).run p =
      (obey (p.current ≠ .openBracket) (s.feedBrackets p.current)).run p := by
  rw [thenClose, content]
  cases ht : p.current with
  | identifier name | openBracket =>
      rw [bind_assoc, run_hand_bind, ht]
      refine (congrArg (run · p) (thenClose_path s)).trans ((run_head (s.nest [] .head) p).trans ?_)
      rw [ht]
      rfl
  | _ => simp [ht, feedBrackets, obey, resume, thenClose, afterVariable]

theorem run_key (s : PartialPath) (key : Key) (p : Parser) :
    (thenClose (pure (.index key)) s).run p = (obey false (s.feedKey key p.current)).run p := by
  rw [thenClose, pure_bind, run_expect_bind]
  cases ht : p.current <;> simp [feedKey, push, obey, resume]

theorem run_afterVariable (s : PartialPath) (name : String) (p : Parser) :
    (thenClose (afterVariable name) s).run p = (obey false (s.feedVariable name p.current)).run p := by
  rw [thenClose, afterVariable, bind_assoc, run_hand_bind]
  by_cases hclose : p.current = .closeBracket
  · simp [hclose, feedVariable, push, obey, resume]
  · rw [if_neg hclose, bind_assoc]
    simp only [pure_bind]
    -- the variable is the first step of a nested path
    refine (run_further [.variable name] (s.steps :: s.outer) p).trans ?_
    cases ht : p.current with
    | closeBracket => exact absurd ht hclose
    | _ => rfl

/-- **One token, one step of the machine.** -/
theorem run_resume (s : PartialPath) (p : Parser) :
    (resume s).run p = (obey (s.takes p.current) (s.feed p.current)).run p := by
  obtain ⟨steps, outer, spot⟩ := s
  cases spot with
  | head => exact run_head _ p
  | afterStep => exact run_further steps outer p
  | afterDot => exact run_dotted _ p
  | inBrackets => exact run_content _ p
  | afterKey key => exact run_key _ key p
  | afterVariable name => exact run_afterVariable _ name p

end Procedure

open Procedure PartialPath

/-! ## Whole paths -/

namespace Parser

variable {s : PartialPath} {p : Parser} {l : Lexer}

/-- Behind the end of input comes the same end of input. -/
theorem Holds.advance_of_end (h : p.Holds l) (hend : p.current = .endOfInput) :
    p.advance false = (.ok (), p) := by
  have hstill : l.StandsStill := Lexer.standsStill_iff.mpr (Or.inl (by rw [h.next_eq, hend]))
  have hnext : p.lexer.next = (.ok p.current, p.lexer) := by
    rw [← h.next_eq, ← hstill.next_next, h.next_eq]
  rw [advance, hnext]
  show (Except.ok (), (⟨p.lexer, p.current, p.lexer.tokenStart⟩ : Parser)) = (.ok (), p)
  rw [← h.position_eq]

/-- The calls that are open in a state of the machine come to an end as the machine does. -/
theorem run_resume_eq (hend : ∀ path, s.feed p.current = .complete path → p.advance false = (.ok (), p)) :
    (resume s).run p = some (run s p) := by
  induction s, p using run.induct with
  | case1 s p path hfeed =>
      rw [run_resume, hfeed, run_of_complete hfeed]
      exact run_bind_of_ok (run_advance_of_eq (hend path hfeed))
  | case2 s p expected hfeed =>
      rw [run_resume, hfeed, run_of_refused hfeed]
      rfl
  | case3 s p s' hfeed p' hadvance ih =>
      rw [run_resume, hfeed, run_of_more hfeed hadvance]
      refine (run_bind_of_ok (run_advance_of_eq hadvance)).trans (ih ?_)
      intro path hcomplete
      exact (holds_of_advance hadvance).advance_of_end (eq_endOfInput_of_complete hcomplete)
  | case4 s p s' hfeed e p' hadvance =>
      rw [run_resume, hfeed, run_of_more_error hfeed hadvance]
      exact run_bind_of_error (run_advance_of_eq hadvance)

theorem parse_eq_resume : Procedure.parse = resume PartialPath.start := by
  rw [Procedure.parse, Procedure.path]
  simp only [bind_assoc, pure_bind]
  rfl

/-- The procedures come to an end on every parser, with what the parser gives. -/
theorem run_parse (p : Parser) : Procedure.parse.run p = some p.parse := by
  rw [parse_eq_resume]
  refine run_resume_eq ?_
  intro path hcomplete
  exact absurd hcomplete (feed_start_ne_complete p.current path)

/-- So the check in `Procedure.brackets` never fails: no error of a parser asks for an opening bracket. -/
theorem run_fault_ne_openBracket {e : SyntaxError} (h : (run s p).1 = .error e) (found : Token) :
    e.fault ≠ .unexpected .openBracket found := by
  induction s, p using run.induct with
  | case1 s p path hfeed =>
      rw [run_of_complete hfeed] at h
      cases h
  | case2 s p expected hfeed =>
      rw [run_of_refused hfeed] at h
      cases h
      intro hfault
      cases hfault
      exact s.feed_ne_refused_openBracket p.current hfeed
  | case3 s p s' hfeed p' hadvance ih =>
      rw [run_of_more hfeed hadvance] at h
      exact ih h
  | case4 s p s' hfeed e' p' hadvance =>
      rw [run_of_more_error hfeed hadvance] at h
      cases h
      obtain ⟨fault, -, rfl⟩ := Lexer.next_eq_error (next_of_advance_error hadvance)
      rintro ⟨⟩

end Parser

end DocPath
