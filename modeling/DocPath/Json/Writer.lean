import DocPath.Json.Basic

/-!
# Writing JSON

The compact text has no blanks at all. The pretty text has one item or member a line,
indented by two spaces a level, and a space behind each colon; empty containers stay
on one line.
-/

namespace DocPath

namespace Json

/-- Numbers keep a fractional part, so that they are not read back as integers, and are
positional for exponents from -4 to 16. Of two equally near decimals the even one is
written. -/
def numberStyle : DecimalStyle where
  tie := .toEven
  isPositional k := -5 < k && k ≤ 16
  wholePoint := true

def escape (c : Char) : List Char :=
  match c with
  | '"' => ['\\', '"']
  | '\\' => ['\\', '\\']
  | '\x08' => ['\\', 'b']
  | '\x0c' => ['\\', 'f']
  | '\n' => ['\\', 'n']
  | '\r' => ['\\', 'r']
  | '\t' => ['\\', 't']
  | c =>
    if c.toNat < 0x20 then
      ['\\', 'u', '0', '0', Nat.digitChar (c.toNat / 16), Nat.digitChar (c.toNat % 16)]
    else [c]

def quoted (s : String) : String :=
  String.ofList ('"' :: s.toList.flatMap escape ++ ['"'])

def numberText : JsonNumber → String
  | .integer n _ => Numeral.intText n
  | .float (.finite negative exponent fraction) _ =>
    String.ofList (numberStyle.write negative exponent fraction)

mutual

def compact : Json → String
  | .null => "null"
  | .bool true => "true"
  | .bool false => "false"
  | .number n => numberText n
  | .string s => quoted s
  | .array items => "[" ++ compactItems items ++ "]"
  | .object members => "\x7b" ++ compactMembers members ++ "\x7d"

def compactItems : List Json → String
  | [] => ""
  | [j] => compact j
  | j :: rest => compact j ++ "," ++ compactItems rest

def compactMembers : List (String × Json) → String
  | [] => ""
  | [(name, j)] => quoted name ++ ":" ++ compact j
  | (name, j) :: rest => quoted name ++ ":" ++ compact j ++ "," ++ compactMembers rest

end

def newline (level : Nat) : String :=
  "\n" ++ String.ofList (List.replicate (2 * level) ' ')

mutual

/-- The text of a value at a level of indentation. -/
def pretty (level : Nat) : Json → String
  | .array [] => "[]"
  | .object [] => "\x7b\x7d"
  | .array items => "[" ++ prettyItems (level + 1) items ++ newline level ++ "]"
  | .object members => "\x7b" ++ prettyMembers (level + 1) members ++ newline level ++ "\x7d"
  | .null => "null"
  | .bool true => "true"
  | .bool false => "false"
  | .number n => numberText n
  | .string s => quoted s

def prettyItems (level : Nat) : List Json → String
  | [] => ""
  | [j] => newline level ++ pretty level j
  | j :: rest => newline level ++ pretty level j ++ "," ++ prettyItems level rest

def prettyMembers (level : Nat) : List (String × Json) → String
  | [] => ""
  | [(name, j)] => newline level ++ quoted name ++ ": " ++ pretty level j
  | (name, j) :: rest =>
    newline level ++ quoted name ++ ": " ++ pretty level j ++ "," ++ prettyMembers level rest

end

end Json

end DocPath
