import DocPath.Syntax.Lexer
import DocPath.Syntax.PartialPath

/-!
# The parser

Feeds the tokens of a lexer to a path under construction. The parser has one token in
hand and can be asked for a path again after a failure; it then goes on with the token
at which it stopped.
-/

namespace DocPath

/-- The token in hand, with the place where it starts, and the lexer behind it. -/
structure Parser where
  lexer : Lexer
  current : Token
  position : Position

namespace Parser

/-- A parser with the next token of a lexer in hand. -/
def ofLexer (lexer : Lexer) : Except SyntaxError Parser :=
  match lexer.next with
  | (.ok token, lexer) => .ok ⟨lexer, token, lexer.tokenStart⟩
  | (.error e, _) => .error e

/-- The characters not read yet, and one for a token in hand that is not the end. -/
def remaining (p : Parser) : Nat :=
  p.lexer.rest.length + if p.current = .endOfInput then 0 else 1

/-- Takes the next token into the hand. If there is none, the hand keeps its token, or
is empty, which is the same as the end of input, if the token was taken out of it. -/
def advance (p : Parser) (taken : Bool) : Except SyntaxError Unit × Parser :=
  match p.lexer.next with
  | (.ok token, lexer) => (.ok (), ⟨lexer, token, lexer.tokenStart⟩)
  | (.error e, lexer) =>
    (.error e, { p with lexer, current := if taken then .endOfInput else p.current })

theorem remaining_advance {p p' : Parser} {taken : Bool} (h : p.advance taken = (.ok (), p'))
    (ht : p.current ≠ .endOfInput) : p'.remaining < p.remaining := by
  unfold advance at h
  split at h
  · rename_i token lexer hnext
    simp only [Prod.mk.injEq, true_and] at h
    subst h
    have hle := p.lexer.length_rest_next_le
    have hlt := Lexer.length_rest_next (l := p.lexer) (t := token) (by rw [hnext])
    rw [hnext] at hle hlt
    simp only [remaining, ht, if_false]
    split
    · simp only at hle
      omega
    · rename_i hne
      have := hlt hne
      simp only at this
      omega
  · simp at h

/-- Reads on until the path is complete or a token does not fit. -/
def run (s : PartialPath) (p : Parser) : Except SyntaxError Path × Parser :=
  match _hs : s.feed p.current with
  | .complete path => (.ok path, p)
  | .refused expected => (.error ⟨p.position, .unexpected expected p.current⟩, p)
  | .more s' =>
    match _ha : p.advance (s.takes p.current) with
    | (.ok (), p') => run s' p'
    | (.error e, p') => (.error e, p')
termination_by p.remaining
decreasing_by
  refine remaining_advance ‹_› fun he => ?_
  exact s.feed_endOfInput_ne_more s' (he ▸ ‹_›)

/-- Reads one path; the text must end behind it. -/
def parse (p : Parser) : Except SyntaxError Path × Parser :=
  run PartialPath.start p

end Parser

/-- The path that a text stands for. -/
def Path.parse (text : String) : Except SyntaxError Path :=
  match Parser.ofLexer (Lexer.ofText text) with
  | .ok parser => parser.parse.1
  | .error e => .error e

end DocPath
