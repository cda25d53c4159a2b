import Mathlib.Control.Monad.Basic
import DocPath.Proofs.Syntax.Grammar
import DocPath.Syntax.Parser

/-!
# Reading a text

A text has its tokens, which the lexer reads one after the other up to the end
(`Lexer.tokens`), and the tokens have their meaning (`Derives`). The parser does both at
once, one token in hand; what it returns is that meaning (`Path.parse_eq_ok_iff`). The
parser may fail earlier than the lexer does, so only success is read off like this.
-/

namespace DocPath

namespace Lexer

/-- All tokens up to the end of the text, or the first error. -/
def tokens (l : Lexer) : Except SyntaxError (List Token) :=
  match _h : l.next.1 with
  | .error e => .error e
  | .ok t => if _ht : t = .endOfInput then .ok [] else l.next.2.tokens.map (t :: ·)
termination_by l.rest.length
decreasing_by exact length_rest_next ‹_› ‹_›

theorem tokens_of_error {l : Lexer} {e : SyntaxError} (h : l.next.1 = .error e) :
    l.tokens = .error e := by
  rw [tokens]
  split <;> simp_all

theorem tokens_of_end {l : Lexer} (h : l.next.1 = .ok .endOfInput) : l.tokens = .ok [] := by
  rw [tokens]
  split <;> simp_all

theorem tokens_of_token {l : Lexer} {t : Token} (h : l.next.1 = .ok t) (ht : t ≠ .endOfInput) :
    l.tokens = l.next.2.tokens.map (t :: ·) := by
  rw [tokens]
  split <;> simp_all

end Lexer

namespace Parser

/-- The tokens before a parser: the one in hand, if it is not the end, and those of its
lexer. -/
def tokens (p : Parser) : Except SyntaxError (List Token) :=
  if p.current = .endOfInput then .ok [] else p.lexer.tokens.map (p.current :: ·)

theorem tokens_of_end {p : Parser} (h : p.current = .endOfInput) : p.tokens = .ok [] := if_pos h

theorem tokens_of_token {p : Parser} (h : p.current ≠ .endOfInput) :
    p.tokens = p.lexer.tokens.map (p.current :: ·) := if_neg h

/-- The parser has the next token of a lexer in hand. -/
structure Holds (p : Parser) (l : Lexer) : Prop where
  next_eq : l.next = (.ok p.current, p.lexer)
  position_eq : p.position = p.lexer.tokenStart

variable {p p' : Parser} {l : Lexer} {e : SyntaxError}

theorem Holds.tokens_eq (h : p.Holds l) : p.tokens = l.tokens := by
  have hfirst : l.next.1 = .ok p.current := by rw [h.next_eq]
  by_cases hend : p.current = .endOfInput
  · rw [tokens_of_end hend]
    exact (Lexer.tokens_of_end (hend ▸ hfirst)).symm
  · rw [tokens_of_token hend, Lexer.tokens_of_token hfirst hend, h.next_eq]

theorem holds_of_ofLexer (h : ofLexer l = .ok p) : p.Holds l := by
  unfold ofLexer at h
  split at h
  · rename_i token lexer hnext
    cases h
    exact ⟨hnext, rfl⟩
  · cases h

theorem next_of_ofLexer_error (h : ofLexer l = .error e) : l.next.1 = .error e := by
  unfold ofLexer at h
  split at h
  · cases h
  · rename_i hnext
    cases h
    rw [hnext]

theorem holds_of_advance {taken : Bool} (h : p.advance taken = (.ok (), p')) :
    p'.Holds p.lexer := by
  unfold advance at h
  split at h
  · rename_i token lexer hnext
    cases h
    exact ⟨hnext, rfl⟩
  · cases h

theorem next_of_advance_error {taken : Bool} (h : p.advance taken = (.error e, p')) :
    p.lexer.next.1 = .error e := by
  unfold advance at h
  split at h
  · cases h
  · rename_i hnext
    cases h
    rw [hnext]

end Parser

theorem PartialPath.eq_endOfInput_of_complete {s : PartialPath} {t : Token} {p : Path}
    (h : s.feed t = .complete p) : t = .endOfInput := by
  cases t with
  | endOfInput => rfl
  | _ =>
      unfold feed at h
      split at h <;>
        simp [feedHead, feedStep, feedDotted, feedBrackets, feedKey, feedVariable] at h
      all_goals split at h <;> cases h

namespace Parser

variable {s s' : PartialPath} {p p' : Parser}

theorem run_of_complete {path : Path} (h : s.feed p.current = .complete path) :
    run s p = (.ok path, p) := by
  rw [run]
  split <;> simp_all

theorem run_of_refused {expected : Expectation} (h : s.feed p.current = .refused expected) :
    run s p = (.error ⟨p.position, .unexpected expected p.current⟩, p) := by
  rw [run]
  split <;> simp_all

theorem run_of_more (h : s.feed p.current = .more s')
    (hadvance : p.advance (s.takes p.current) = (.ok (), p')) : run s p = run s' p' := by
  rw [run]
  split
  · simp_all
  · simp_all
  · split <;> simp_all

theorem run_of_more_error {e : SyntaxError} (h : s.feed p.current = .more s')
    (hadvance : p.advance (s.takes p.current) = (.error e, p')) : run s p = (.error e, p') := by
  rw [run]
  split
  · simp_all
  · simp_all
  · split <;> simp_all

/-- A machine accepts what a parser has before it if it is done with the token in hand, or
goes on from there with the tokens of the lexer. -/
theorem exists_accepts_iff {path : Path} :
    (∃ ts, p.tokens = .ok ts ∧ s.Accepts ts path) ↔
      s.feed p.current = .complete path ∨
        ∃ s' ts, s.feed p.current = .more s' ∧ p.lexer.tokens = .ok ts ∧ s'.Accepts ts path := by
  by_cases hend : p.current = .endOfInput
  · rw [tokens_of_end hend, hend]
    constructor
    · rintro ⟨ts, hts, s', hafter, hdone⟩
      obtain rfl : [] = ts := Except.ok.inj hts
      obtain rfl : s = s' := Option.some.inj hafter
      exact Or.inl hdone
    · rintro (hdone | ⟨s', _, hfeed, _⟩)
      · exact ⟨[], rfl, s, rfl, hdone⟩
      · exact absurd hfeed (s.feed_endOfInput_ne_more s')
  · rw [tokens_of_token hend]
    constructor
    · rintro ⟨ts, hts, haccepts⟩
      cases hlexer : p.lexer.tokens with
      | error e => rw [hlexer] at hts; cases hts
      | ok us =>
          rw [hlexer] at hts
          obtain rfl : p.current :: us = ts := Except.ok.inj hts
          obtain ⟨s', hfeed, hrest⟩ := PartialPath.accepts_cons.mp haccepts
          exact Or.inr ⟨s', us, hfeed, rfl, hrest⟩
    · rintro (hdone | ⟨s', us, hfeed, hlexer, hrest⟩)
      · exact absurd (PartialPath.eq_endOfInput_of_complete hdone) hend
      · exact ⟨p.current :: us, by rw [hlexer]; rfl,
          PartialPath.accepts_cons.mpr ⟨s', hfeed, hrest⟩⟩

/-- The parser returns what the machine accepts, reading on only as far as it must. -/
theorem run_eq_ok_iff (s : PartialPath) (p : Parser) (path : Path) :
    (run s p).1 = .ok path ↔ ∃ ts, p.tokens = .ok ts ∧ s.Accepts ts path := by
  -- along the parser's own recursion: at each token in hand, the machine is done, refuses
  -- it, goes on with the next one, or there is no next one
  induction s, p using run.induct with
  | case1 s p found hfeed =>
      rw [run_of_complete hfeed, exists_accepts_iff, hfeed]
      simp
  | case2 s p expected hfeed =>
      rw [run_of_refused hfeed, exists_accepts_iff, hfeed]
      simp
  | case3 s p s' hfeed p' hadvance ih =>
      rw [run_of_more hfeed hadvance, ih, exists_accepts_iff (s := s) (p := p), hfeed,
        (holds_of_advance hadvance).tokens_eq]
      simp
  | case4 s p s' hfeed e p' hadvance =>
      rw [run_of_more_error hfeed hadvance, exists_accepts_iff,
        Lexer.tokens_of_error (next_of_advance_error hadvance)]
      simp [hfeed]

end Parser

namespace Path

theorem parse_eq_ok_iff {text : String} {p : Path} :
    Path.parse text = .ok p ↔
      ∃ ts, (Lexer.ofText text).tokens = .ok ts ∧ Derives .path ts p := by
  simp only [← accepts_iff_derives]
  unfold Path.parse
  cases hparser : Parser.ofLexer (Lexer.ofText text) with
  | error e => simp [Lexer.tokens_of_error (Parser.next_of_ofLexer_error hparser)]
  | ok parser =>
      rw [← (Parser.holds_of_ofLexer hparser).tokens_eq]
      exact Parser.run_eq_ok_iff PartialPath.start parser p

/-- **The parser accepts exactly its grammar, with one meaning for each sentence.** A text
is parsed as a path if and only if its tokens derive that path, and no tokens derive two. -/
theorem parse_iff_derives :
    (∀ text p, Path.parse text = .ok p ↔
      ∃ ts, (Lexer.ofText text).tokens = .ok ts ∧ Derives .path ts p) ∧
    ∀ ts p q, Derives .path ts p → Derives .path ts q → p = q :=
  ⟨fun _ _ => parse_eq_ok_iff, fun _ _ _ => Derives.unique⟩

/-- A variable with a step behind it starts a nested path in its brackets. -/
theorem parse_nested_variable_path :
    Path.parse "a[$x.b]" = .ok [.name "a", .nested [.variable "x", .name "b"]] ∧
    ∀ p, Derives .path [.identifier "a", .openBracket, .variable "x", .dot, .identifier "b",
      .closeBracket] p → p = [.name "a", .nested [.variable "x", .name "b"]] := by
  have htokens : (Lexer.ofText "a[$x.b]").tokens = .ok [.identifier "a", .openBracket,
      .variable "x", .dot, .identifier "b", .closeBracket] := by
    decide +kernel
  have hsteps : Derives .brackets [.variable "x", .dot, .identifier "b"]
      [.nested [.variable "x", .name "b"]] := .variablePath "x" (.dotName "b") .noStep
  have hderives : Derives .path [.identifier "a", .openBracket, .variable "x", .dot,
      .identifier "b", .closeBracket] [.name "a", .nested [.variable "x", .name "b"]] :=
    .path (.nameHead "a") (.moreSteps (.bracketsStep hsteps) .noStep)
  exact ⟨(parse_iff_derives.1 _ _).mpr ⟨_, htokens, hderives⟩,
    fun p hp => parse_iff_derives.2 _ p _ hp hderives⟩

end Path

end DocPath
