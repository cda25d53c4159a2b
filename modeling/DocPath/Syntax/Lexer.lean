import DocPath.Syntax.Lexeme

/-!
# The lexer

Reads one lexeme after the other and keeps count of the place in the text. A fault is
no end: the lexer stands behind what it read before the fault, and goes on from there
when it is asked again.
-/

namespace DocPath

/-- What is left of a text, how much was read, the place behind it, and the place where
the last token started. -/
structure Lexer where
  rest : List Char
  offset : Nat
  location : Position
  tokenStart : Position

namespace Lexer

def ofText (text : String) : Lexer :=
  ⟨text.toList, 0, Position.start, Position.start⟩

/-- Moves behind a run of characters. -/
def pass (l : Lexer) (read rest : List Char) : Lexer :=
  { l with
    rest := rest
    offset := l.offset + read.length
    location := l.location.advance read }

/-- Moves to the first character of the next token. -/
def skipBlanks (l : Lexer) : Lexer :=
  let here := l.pass (l.rest.takeWhile Text.isBlank) (l.rest.dropWhile Text.isBlank)
  { here with tokenStart := here.location }

/-- A fault is reported where its token starts, a bad escape at its backslash, which is
the last character read. -/
def faultPosition (start : Position) (read : List Char) : LexicalFault → Position
  | .unknownEscape _ => start.advance read.dropLast
  | .unfinishedEscape => start.advance read.dropLast
  | _ => start

/-- Reads one token, or finds a fault. Behind the end of the text there is always
another end of input. -/
def next (l : Lexer) : Except SyntaxError Token × Lexer :=
  let here := l.skipBlanks
  let lexeme := Lexeme.ofChars here.rest
  let result := lexeme.result.mapError fun fault =>
    ⟨faultPosition here.tokenStart lexeme.read fault, .lexical fault⟩
  (result, here.pass lexeme.read lexeme.rest)

/-- A token of a lexer is the token of a lexeme. -/
theorem result_of_next {l : Lexer} {t : Token} (h : l.next.1 = .ok t) :
    (Lexeme.ofChars l.skipBlanks.rest).result = .ok t := by
  revert h
  simp only [next]
  cases (Lexeme.ofChars l.skipBlanks.rest).result with
  | error fault =>
      intro h
      cases h
  | ok u =>
      intro h
      exact congrArg Except.ok (Except.ok.inj h)

/-- Reading a token takes characters. -/
theorem length_rest_next {l : Lexer} {t : Token} (h : l.next.1 = .ok t) (ht : t ≠ .endOfInput) :
    l.next.2.rest.length < l.rest.length := by
  have hblank : l.skipBlanks.rest.length ≤ l.rest.length :=
    (List.dropWhile_suffix (l := l.rest) Text.isBlank).length_le
  have hread := congrArg List.length (Lexeme.read_append_rest l.skipBlanks.rest)
  have hne : (Lexeme.ofChars l.skipBlanks.rest).read ≠ [] :=
    Lexeme.read_ne_nil (result_of_next h) ht
  have hpos := List.length_pos_iff.2 hne
  simp only [List.length_append] at hread
  simp only [next, pass]
  omega

/-- Nothing is ever put back. -/
theorem length_rest_next_le (l : Lexer) : l.next.2.rest.length ≤ l.rest.length := by
  have hblank : l.skipBlanks.rest.length ≤ l.rest.length :=
    (List.dropWhile_suffix (l := l.rest) Text.isBlank).length_le
  have hread := congrArg List.length (Lexeme.read_append_rest l.skipBlanks.rest)
  simp only [List.length_append] at hread
  simp only [next, pass]
  omega

end Lexer

end DocPath
