import DocPath.Numeral
import DocPath.Path.Basic
import DocPath.Text.Basic

/-!
# Tokens and syntax errors

The tokens of path expressions, and what is wrong with the text of a path, and where. A
lexical fault lies in the text itself; otherwise a token stands where the grammar has no
use for it.
-/

namespace DocPath

/-! ## Tokens -/

inductive Token where
  | identifier (name : String)
  | integer (n : Int64)
  | string (s : String)
  | variable (name : String)
  | dot
  | openBracket
  | closeBracket
  | endOfInput
deriving DecidableEq

/-- How diagnostics name a token. -/
def Token.description : Token → String
  | .identifier name => "identifier '" ++ name ++ "'"
  | .integer n => "integer " ++ Numeral.intText n.toInt
  | .string s => "string " ++ Text.quoted s
  | .variable name => "variable $" ++ name
  | .dot => "'.'"
  | .openBracket => "'['"
  | .closeBracket => "']'"
  | .endOfInput => "end of input"

/-! ## Places -/

/-- A place in a text; lines and columns count from one, and columns count characters. -/
structure Position where
  line : Nat
  column : Nat
deriving DecidableEq, Repr

namespace Position

def start : Position := ⟨1, 1⟩

/-- The place behind a character. -/
def next (p : Position) (c : Char) : Position :=
  if c = '\n' then ⟨p.line + 1, 1⟩ else ⟨p.line, p.column + 1⟩

/-- The place behind a run of characters. -/
def advance (p : Position) (cs : List Char) : Position :=
  cs.foldl next p

end Position

/-! ## Errors -/

inductive LexicalFault where
  | missingVariableName
  | integerOutOfRange (numeral : String)
  | unknownEscape (c : Char)
  | unfinishedEscape
  | missingClosingQuote
  | strayCharacter (c : Char)
deriving DecidableEq

def LexicalFault.message : LexicalFault → String
  | .missingVariableName => "expected variable name after '$'"
  | .integerOutOfRange numeral => "integer out of range: " ++ numeral
  | .unknownEscape c => "invalid escape sequence '\\" ++ String.singleton c ++ "'"
  | .unfinishedEscape => "unterminated string"
  | .missingClosingQuote => "unterminated string: missing closing quote"
  | .strayCharacter c => "unexpected character '" ++ String.singleton c ++ "'"

/-- What the grammar asks for at some point of a path. -/
inductive Expectation where
  | head
  | fieldName
  | bracketContent
  /-- Never missing: it is asked for only where it stands. -/
  | openBracket
  | closeBracket
  | endOfInput
deriving DecidableEq

def Expectation.description : Expectation → String
  | .head => "field name, variable or '['"
  | .fieldName => "field name after '.'"
  | .bracketContent => "index, string, variable or path inside '[]'"
  | .openBracket => Token.openBracket.description
  | .closeBracket => Token.closeBracket.description
  | .endOfInput => Token.endOfInput.description

inductive SyntaxFault where
  | lexical (fault : LexicalFault)
  | unexpected (expected : Expectation) (found : Token)
deriving DecidableEq

def SyntaxFault.message : SyntaxFault → String
  | .lexical fault => fault.message
  | .unexpected expected found =>
    "expected " ++ expected.description ++ ", found " ++ found.description

structure SyntaxError where
  position : Position
  fault : SyntaxFault
deriving DecidableEq

namespace SyntaxError

/-- What is wrong, without the place. -/
def detail (e : SyntaxError) : String :=
  e.fault.message

def message (e : SyntaxError) : String :=
  "parse error at line " ++ Numeral.text e.position.line ++ ", column " ++
    Numeral.text e.position.column ++ ": " ++ e.detail

end SyntaxError

end DocPath
