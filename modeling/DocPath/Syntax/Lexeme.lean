import DocPath.Syntax.Basic

/-!
# Lexemes

The lexical grammar on plain characters: what the token at the front of a text is, which
characters it takes, and how far reading gets when there is none. A lexeme takes as
many characters as it can; nothing of the text is lost (`Lexeme.read_append_rest`).
-/

namespace DocPath

/-- The result of reading at the front of a text: a token or a fault, the characters
read and those left. -/
structure Lexeme where
  result : Except LexicalFault Token
  read : List Char
  rest : List Char

/-! ## String literals -/

/-- The result of reading a string literal behind its opening quote. -/
structure LiteralBody where
  result : Except LexicalFault (List Char)
  read : List Char
  rest : List Char

namespace LiteralBody

/-- A character of the literal, and the characters that stand for it, come in front. -/
def cons (c : Char) (written : List Char) (body : LiteralBody) : LiteralBody :=
  ⟨body.result.map (c :: ·), written ++ body.read, body.rest⟩

/-- The character that a letter behind a backslash stands for. -/
def unescape? : Char → Option Char
  | 'n' => some '\n'
  | 't' => some '\t'
  | 'r' => some '\r'
  | '"' => some '"'
  | '\'' => some '\''
  | '\\' => some '\\'
  | _ => none

/-- A string literal ends at its own quote. A backslash that starts no escape is the
last character read. -/
def ofChars (quote : Char) : List Char → LiteralBody
  | [] => ⟨.error .missingClosingQuote, [], []⟩
  | c :: rest =>
    if c = quote then ⟨.ok [], [c], rest⟩
    else if c = '\\' then
      match rest with
      | [] => ⟨.error .unfinishedEscape, [c], []⟩
      | e :: rest =>
        match unescape? e with
        | some d => (ofChars quote rest).cons d [c, e]
        | none => ⟨.error (.unknownEscape e), [c], e :: rest⟩
    else (ofChars quote rest).cons c [c]

end LiteralBody

/-! ## Lexemes -/

namespace Lexeme

/-- A token of one character. -/
def single (t : Token) (c : Char) (rest : List Char) : Lexeme :=
  ⟨.ok t, [c], rest⟩

/-- Nothing is read where no token starts. -/
def refuse (fault : LexicalFault) (cs : List Char) : Lexeme :=
  ⟨.error fault, [], cs⟩

def ofIdentifier (cs : List Char) : Lexeme :=
  let name := cs.takeWhile Text.isNameChar
  ⟨.ok (.identifier (String.ofList name)), name, cs.dropWhile Text.isNameChar⟩

def ofVariable (cs : List Char) : Lexeme :=
  let name := cs.takeWhile Text.isNameChar
  ⟨.ok (.variable (String.ofList name)), '$' :: name, cs.dropWhile Text.isNameChar⟩

/-- An integer of the given sign, as far as 64 bits reach. -/
def ofInteger (sign : List Char) (cs : List Char) : Lexeme :=
  let numeral := sign ++ cs.takeWhile Char.isDigit
  let n := Numeral.intValue numeral
  let result :=
    if h : Int64.minValue.toInt ≤ n ∧ n ≤ Int64.maxValue.toInt then
      .ok (.integer (.ofIntLE n h.1 h.2))
    else .error (.integerOutOfRange (String.ofList numeral))
  ⟨result, numeral, cs.dropWhile Char.isDigit⟩

def ofString (quote : Char) (rest : List Char) : Lexeme :=
  let body := LiteralBody.ofChars quote rest
  ⟨body.result.map fun s => .string (String.ofList s), quote :: body.read, body.rest⟩

/-- Whether a condition holds of the first character. -/
def startsWith (p : Char → Bool) : List Char → Bool
  | [] => false
  | c :: _ => p c

/-- The lexeme at the front of a text that does not start with a blank. -/
def ofChars : List Char → Lexeme
  | [] => ⟨.ok .endOfInput, [], []⟩
  | c :: rest =>
    if c = '$' then
      if startsWith Text.isNameStart rest then ofVariable rest
      else refuse .missingVariableName (c :: rest)
    else if c = '.' then single .dot c rest
    else if c = '[' then single .openBracket c rest
    else if c = ']' then single .closeBracket c rest
    else if c = '"' || c = '\'' then ofString c rest
    else if c = '-' && startsWith Char.isDigit rest then ofInteger [c] rest
    else if c.isDigit then ofInteger [] (c :: rest)
    else if Text.isNameStart c then ofIdentifier (c :: rest)
    else refuse (.strayCharacter c) (c :: rest)

end Lexeme

/-! ## What is read and what is left -/

theorem LiteralBody.read_append_rest (quote : Char) (cs : List Char) :
    (ofChars quote cs).read ++ (ofChars quote cs).rest = cs := by
  fun_induction ofChars quote cs with
  | case1 | case2 | case3 | case5 => rfl
  | case4 e rest c he _ ih => exact congrArg ('\\' :: e :: ·) ih
  | case6 c rest _ _ ih => exact congrArg (c :: ·) ih

theorem Lexeme.read_append_rest (cs : List Char) : (ofChars cs).read ++ (ofChars cs).rest = cs := by
  cases cs with
  | nil => rfl
  | cons c rest =>
      rw [ofChars]
      split
      · subst c
        split
        · exact congrArg ('$' :: ·) List.takeWhile_append_dropWhile
        · rfl
      split
      · rfl
      split
      · rfl
      split
      · rfl
      split
      · exact congrArg (c :: ·) (LiteralBody.read_append_rest c rest)
      split
      · exact congrArg (c :: ·) List.takeWhile_append_dropWhile
      split
      · exact List.takeWhile_append_dropWhile
      split
      · exact List.takeWhile_append_dropWhile
      · rfl

/-- Only the end of the text is a token without characters. -/
theorem Lexeme.read_ne_nil {cs : List Char} {t : Token} (h : (ofChars cs).result = .ok t)
    (ht : t ≠ .endOfInput) : (ofChars cs).read ≠ [] := by
  cases cs with
  | nil => exact absurd (Except.ok.inj h).symm ht
  | cons c rest =>
      revert h
      rw [ofChars]
      split
      · split
        · exact fun _ => List.cons_ne_nil _ _
        · intro h
          cases h
      split
      · exact fun _ => List.cons_ne_nil _ _
      split
      · exact fun _ => List.cons_ne_nil _ _
      split
      · exact fun _ => List.cons_ne_nil _ _
      split
      · exact fun _ => List.cons_ne_nil _ _
      split
      · exact fun _ => List.cons_ne_nil _ _
      split
      · rename_i hdigit
        simp [ofInteger, hdigit]
      split
      · rename_i hstart
        simp [ofIdentifier, Text.isNameChar_of_isNameStart hstart]
      · intro h
        cases h

end DocPath
