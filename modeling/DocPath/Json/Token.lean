import DocPath.Json.Number

/-!
# The lexical grammar of JSON

Punctuation, strings, numbers and the three literal names. Blanks are the space, the
tab, the line feed and the carriage return only. A text that is not made of such
tokens is refused as a whole.
-/

namespace DocPath

inductive JsonToken where
  | beginArray
  | endArray
  | beginObject
  | endObject
  | comma
  | colon
  | string (s : String)
  /-- A number or a literal name. -/
  | scalar (j : Json)

namespace JsonToken

def isBlank (c : Char) : Bool :=
  c = ' ' || c = '\t' || c = '\n' || c = '\r'

def punctuation? : Char → Option JsonToken
  | '[' => some .beginArray
  | ']' => some .endArray
  | '{' => some .beginObject
  | '}' => some .endObject
  | ',' => some .comma
  | ':' => some .colon
  | _ => none

/-! ## Strings -/

def hexValue? (c : Char) : Option Nat :=
  if c.isDigit then some (c.toNat - '0'.toNat)
  else if 'a' ≤ c ∧ c ≤ 'f' then some (c.toNat - 'a'.toNat + 10)
  else if 'A' ≤ c ∧ c ≤ 'F' then some (c.toNat - 'A'.toNat + 10)
  else none

/-- The 16-bit unit written by four hexadecimal digits. -/
def unit? (a b c d : Char) : Option Nat := do
  let a ← hexValue? a
  let b ← hexValue? b
  let c ← hexValue? c
  let d ← hexValue? d
  pure (((a * 16 + b) * 16 + c) * 16 + d)

def isHighSurrogate (n : Nat) : Bool :=
  0xD800 ≤ n && n ≤ 0xDBFF

def isLowSurrogate (n : Nat) : Bool :=
  0xDC00 ≤ n && n ≤ 0xDFFF

/-- The character named by one letter after a backslash. -/
def unescape? : Char → Option Char
  | '"' => some '"'
  | '\\' => some '\\'
  | '/' => some '/'
  | 'b' => some '\x08'
  | 'f' => some '\x0c'
  | 'n' => some '\n'
  | 'r' => some '\r'
  | 't' => some '\t'
  | _ => none

/-- The characters of a string up to its closing quote, and the text behind it. A
character beyond U+FFFF is escaped as a pair of surrogates; a surrogate that is not
part of such a pair is refused, and so are raw control characters. -/
def stringBody : List Char → Option (List Char × List Char)
  | [] => none
  | '"' :: rest => some ([], rest)
  | '\\' :: 'u' :: a :: b :: c :: d :: rest =>
    match unit? a b c d with
    | none => none
    | some n =>
      if isHighSurrogate n then
        match rest with
        | '\\' :: 'u' :: e :: f :: g :: h :: rest =>
          match unit? e f g h with
          | none => none
          | some m =>
            if isLowSurrogate m then
              (stringBody rest).map fun (s, rest) =>
                (Char.ofNat (0x10000 + (n - 0xD800) * 0x400 + (m - 0xDC00)) :: s, rest)
            else none
        | _ => none
      else if isLowSurrogate n then none
      else (stringBody rest).map fun (s, rest) => (Char.ofNat n :: s, rest)
  | '\\' :: e :: rest =>
    match unescape? e with
    | none => none
    | some c => (stringBody rest).map fun (s, rest) => (c :: s, rest)
  | c :: rest =>
    if c.toNat < 0x20 || c = '\\' then none
    else (stringBody rest).map fun (s, rest) => (c :: s, rest)

/-! ## Tokens -/

def isNumberChar (c : Char) : Bool :=
  c.isDigit || c = '-' || c = '+' || c = '.' || c = 'e' || c = 'E'

def literal? (name : List Char) : Option Json :=
  if name = "null".toList then some .null
  else if name = "true".toList then some (.bool true)
  else if name = "false".toList then some (.bool false)
  else none

/-- The first token of a text that does not start with a blank, and the text behind it. -/
def first? (c : Char) (rest : List Char) : Option (JsonToken × List Char) :=
  match punctuation? c with
  | some t => some (t, rest)
  | none =>
    if c = '"' then (stringBody rest).map fun (s, rest) => (.string (String.ofList s), rest)
    else if c.isDigit || c = '-' then
      (JsonNumber.read (c :: rest.takeWhile isNumberChar)).map fun n =>
        (.scalar (.number n), rest.dropWhile isNumberChar)
    else
      (literal? (c :: rest.takeWhile Char.isLower)).map fun j =>
        (.scalar j, rest.dropWhile Char.isLower)

theorem length_dropWhile_le (p : Char → Bool) (cs : List Char) :
    (cs.dropWhile p).length ≤ cs.length :=
  (List.dropWhile_suffix p).length_le

theorem length_of_stringBody {cs s rest : List Char} (h : stringBody cs = some (s, rest)) :
    rest.length < cs.length := by
  fun_induction stringBody cs generalizing s rest <;>
    simp_all only [Option.map_eq_some_iff, Prod.exists, Prod.mk.injEq, reduceCtorEq,
      Option.some.injEq, List.length_cons] <;>
    grind

theorem length_of_first? {c : Char} {cs : List Char} {t : JsonToken} {rest : List Char}
    (h : first? c cs = some (t, rest)) : rest.length ≤ cs.length := by
  unfold first? at h
  split at h
  · simp_all
  · split at h
    · obtain ⟨⟨s, r⟩, hs, hr⟩ := Option.map_eq_some_iff.1 h
      have := length_of_stringBody hs
      simp_all
      omega
    · split at h
      · obtain ⟨n, _, hr⟩ := Option.map_eq_some_iff.1 h
        simp only [Prod.mk.injEq] at hr
        exact hr.2 ▸ length_dropWhile_le _ _
      · obtain ⟨n, _, hr⟩ := Option.map_eq_some_iff.1 h
        simp only [Prod.mk.injEq] at hr
        exact hr.2 ▸ length_dropWhile_le _ _

/-- All tokens of a text, or none if part of it is no token. -/
def all? (cs : List Char) : Option (List JsonToken) :=
  match cs with
  | [] => some []
  | c :: cs =>
    if isBlank c then all? cs
    else match _h : first? c cs with
      | none => none
      | some (t, rest) => (all? rest).map (t :: ·)
termination_by cs.length
decreasing_by
  · simp
  · have := length_of_first? ‹_›
    simp only [List.length_cons]
    omega

end JsonToken

end DocPath
