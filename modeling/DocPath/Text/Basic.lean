import DocPath.Text.Alphabetic
import DocPath.Text.Extending
import DocPath.Text.Numeric
import DocPath.Text.Unprintable

/-!
# Texts

Path expressions are written in characters of any script. Names are made of
alphabetic characters, numbers and underscores; blanks separate tokens. Integers
are the exception: their digits are ASCII only. Diagnostics show a text in double
quotes, and a file is read line by line.
-/

namespace DocPath.Text

/-! ## Character classes -/

def inRanges (ranges : List (Nat × Nat)) (c : Char) : Bool :=
  ranges.any fun range => range.1 ≤ c.toNat && c.toNat ≤ range.2

/-- Below U+0080 the alphabetic characters are the ASCII letters, so the table is
consulted only beyond. -/
def isAlphabetic (c : Char) : Bool :=
  if c.toNat < 0x80 then c.isAlpha else inRanges alphabeticRanges c

def isNumeric (c : Char) : Bool :=
  if c.toNat < 0x80 then c.isDigit else inRanges numericRanges c

/-- The characters that separate tokens and make up a blank line: the property White_Space of Unicode 17.0
as closed ranges of code points, ascending and apart. -/
def blankRanges : List (Nat × Nat) :=
  [(0x09, 0x0D), (0x20, 0x20), (0x85, 0x85), (0xA0, 0xA0), (0x1680, 0x1680), (0x2000, 0x200A),
   (0x2028, 0x2029), (0x202F, 0x202F), (0x205F, 0x205F), (0x3000, 0x3000)]

def isBlank (c : Char) : Bool :=
  inRanges blankRanges c

/-- A name starts with an alphabetic character or an underscore. -/
def isNameStart (c : Char) : Bool :=
  isAlphabetic c || c == '_'

/-- A name goes on with alphabetic characters, numbers and underscores. -/
def isNameChar (c : Char) : Bool :=
  isAlphabetic c || isNumeric c || c == '_'

theorem isNameChar_of_isNameStart {c : Char} (h : isNameStart c = true) : isNameChar c = true := by
  grind [isNameStart, isNameChar]

/-- No combining character stands below U+0300. -/
def isExtending (c : Char) : Bool :=
  0x300 ≤ c.toNat && inRanges extendingRanges c

def isPrintable (c : Char) : Bool :=
  !inRanges unprintableRanges c

/-- What the lexer reads as a name. -/
def IsName (name : List Char) : Prop :=
  ∃ first rest,
    name = first :: rest ∧ isNameStart first = true ∧ ∀ c ∈ rest, isNameChar c = true

/-! ## Quoted text

In double quotes, so that the ends of a text, its control characters and characters without
a shape of their own can be seen. -/

/-- A code point in braces. -/
def codePoint (c : Char) : List Char :=
  '\\' :: 'u' :: '\x7b' :: Nat.toDigits 16 c.toNat ++ ['\x7d']

def quotedChar (c : Char) : List Char :=
  match c with
  | '\x00' => ['\\', '0']
  | '\t' => ['\\', 't']
  | '\r' => ['\\', 'r']
  | '\n' => ['\\', 'n']
  | '"' => ['\\', '"']
  | '\\' => ['\\', '\\']
  | c => if isExtending c || !isPrintable c then codePoint c else [c]

def quoted (s : String) : String :=
  String.ofList ('"' :: s.toList.flatMap quotedChar ++ ['"'])

/-! ## Lines

A line ends at a line feed, with a carriage return before it if there is one. The last
line needs no end. -/

/-- The characters of each line, those of the end of the line included. -/
def rawLines : List Char → List (List Char)
  | [] => []
  | c :: cs =>
    if c = '\n' then [c] :: rawLines cs
    else match rawLines cs with
      | [] => [[c]]
      | line :: lines => (c :: line) :: lines

/-- A line without its end. A carriage return alone is no end. -/
def withoutEnd (line : List Char) : List Char :=
  match line.reverse with
  | '\n' :: '\r' :: rest => rest.reverse
  | '\n' :: rest => rest.reverse
  | _ => line

def lines (text : String) : List String :=
  (rawLines text.toList).map fun line => String.ofList (withoutEnd line)

/-- Whether a line has nothing but blanks. -/
def isBlankLine (line : String) : Bool :=
  line.toList.all isBlank

end DocPath.Text
