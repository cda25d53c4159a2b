import DocPath.Json.Basic
import DocPath.Path.Basic

/-!
# Written forms of a path

In its text, the first step is written without a separator. A variable further on stands
in brackets; as the first step it stands alone, as it does in the brackets of a nested
path. Strings in brackets use only escapes that the lexer reads back.

As JSON, a path is the list of its steps, each a pair of a tag and a payload: `i` for a
literal key, `n` for a name, `v` for a variable and `m` for a nested path.
-/

namespace DocPath

/-! ## Text -/

/-- A character inside double quotes. -/
def Key.escape : Char → List Char
  | '\n' => ['\\', 'n']
  | '\t' => ['\\', 't']
  | '\r' => ['\\', 'r']
  | '"' => ['\\', '"']
  | '\\' => ['\\', '\\']
  | c => [c]

def Key.chars : Key → List Char
  | .int n => Numeral.ofInt n.toInt
  | .str s => '"' :: s.toList.flatMap Key.escape ++ ['"']

mutual

/-- A step at the start of a path. -/
def Segment.headChars : Segment → List Char
  | .name name => name.toList
  | .variable name => '$' :: name.toList
  | .index key => '[' :: key.chars ++ [']']
  | .nested path => '[' :: Path.chars path ++ [']']

/-- A step behind another one. -/
def Segment.tailChars : Segment → List Char
  | .name name => '.' :: name.toList
  | .variable name => '[' :: '$' :: name.toList ++ [']']
  | .index key => '[' :: key.chars ++ [']']
  | .nested path => '[' :: Path.chars path ++ [']']

def Path.chars : List Segment → List Char
  | [] => []
  | segment :: rest => segment.headChars ++ Path.tailChars rest

def Path.tailChars : List Segment → List Char
  | [] => []
  | segment :: rest => segment.tailChars ++ Path.tailChars rest

end

def Path.text (path : Path) : String :=
  String.ofList (Path.chars path)

/-! ## Tagged form -/

def Key.toJson : Key → Json
  | .int n => .ofInt64 n
  | .str s => .string s

mutual

def Segment.toJson : Segment → Json
  | .index key => .array [.string "i", key.toJson]
  | .name name => .array [.string "n", .string name]
  | .variable name => .array [.string "v", .string name]
  | .nested path => .array [.string "m", .array (Path.toItems path)]

def Path.toItems : List Segment → List Json
  | [] => []
  | segment :: rest => segment.toJson :: Path.toItems rest

end

def Path.toJson (path : Path) : Json :=
  .array (Path.toItems path)

end DocPath
