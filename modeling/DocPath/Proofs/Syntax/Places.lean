import Mathlib.Data.List.Induction
import DocPath.Proofs.Syntax.Spelling
import DocPath.Proofs.Syntax.Viability

/-!
# Places in a text

A lexer counts lines and columns while it reads. However often it was called, and whatever it found,
it stands behind some characters of its text and knows the place there (`Lexer.StandsBehind`), which is
the place that one counts from the start of the text (`Position.advance_start`). So the start that it
reports is where the next character that is no blank stands, and a fault is reported there too. One
fault has a place of its own: a backslash in a string literal that starts no escape. It is the last
character read, and what stands between it and the quote is the spelling of a string
(`LiteralBody.exists_broken`).
-/

namespace DocPath

/-! ## Counting from the start -/

namespace Position

/-- The place behind some characters: the lines are counted by the line breaks, the columns by the
characters behind the last of them. -/
def behind (cs : List Char) : Position :=
  ⟨1 + cs.count '\n', 1 + (cs.reverse.takeWhile (· ≠ '\n')).length⟩

/-- The place of an offset in a text. -/
def ofOffset (text : List Char) (k : Nat) : Position :=
  behind (text.take k)

theorem next_behind (cs : List Char) (c : Char) : (behind cs).next c = behind (cs ++ [c]) := by
  by_cases hc : c = '\n'
  · simp [behind, next, hc, Nat.add_assoc]
  · simp [behind, next, hc, Nat.add_comm]

/-- What is counted on the way is what is counted from the start. -/
theorem advance_start (cs : List Char) : start.advance cs = behind cs := by
  induction cs using List.reverseRecOn with
  | nil => rfl
  | append_singleton cs c ih =>
      rw [advance_append, ih]
      exact next_behind cs c

theorem ofOffset_length (before rest : List Char) :
    ofOffset (before ++ rest) before.length = start.advance before := by
  rw [ofOffset, List.take_left, advance_start]

end Position

/-- The first offset from another one on where no blank stands, or the end of the text. -/
structure FirstUnblank (text : List Char) (offset k : Nat) : Prop where
  offset_le : offset ≤ k
  le_length : k ≤ text.length
  blank : ∀ i, offset ≤ i → i < k → ∀ c ∈ text[i]?, Text.isBlank c = true
  unblank : ∀ c ∈ text[k]?, Text.isBlank c = false

/-- Some blanks, and then none. -/
theorem firstUnblank_append {before blanks rest : List Char}
    (hblanks : ∀ c ∈ blanks, Text.isBlank c = true) (hrest : ∀ c ∈ rest.head?, Text.isBlank c = false) :
    FirstUnblank (before ++ blanks ++ rest) before.length (before ++ blanks).length where
  offset_le := by simp
  le_length := by simp
  blank := by
    intro i hlow hhigh c hc
    rw [List.getElem?_append_left hhigh, List.getElem?_append_right hlow] at hc
    exact hblanks c (List.mem_of_getElem? hc)
  unblank := by
    intro c hc
    rw [List.getElem?_append_right (Nat.le_refl _), Nat.sub_self, ← List.head?_eq_getElem?] at hc
    exact hrest c hc

/-! ## Where a lexer stands -/

namespace Lexer

/-- The lexer that is left when another one was called a number of times, whatever that gave. -/
def after (l : Lexer) : Nat → Lexer
  | 0 => l
  | calls + 1 => (l.after calls).next.2

/-- A lexer has read some characters of a text and knows how many, and the place behind them. -/
structure StandsBehind (before text : List Char) (l : Lexer) : Prop where
  text_eq : text = before ++ l.rest
  offset_eq : l.offset = before.length
  location_eq : l.location = Position.start.advance before

variable {before text : List Char} {l : Lexer}

theorem standsBehind_ofText (text : String) : (ofText text).StandsBehind [] text.toList :=
  ⟨rfl, rfl, rfl⟩

theorem StandsBehind.pass (h : l.StandsBehind before text) {read rest : List Char}
    (hrest : l.rest = read ++ rest) : (l.pass read rest).StandsBehind (before ++ read) text where
  text_eq := by
    rw [h.text_eq, hrest, List.append_assoc]
    rfl
  offset_eq := by
    rw [List.length_append, ← h.offset_eq]
    rfl
  location_eq := by
    rw [Position.advance_append, ← h.location_eq]
    rfl

theorem StandsBehind.offset_le (h : l.StandsBehind before text) : l.offset ≤ text.length := by
  rw [h.offset_eq, h.text_eq, List.length_append]
  exact Nat.le_add_right _ _

theorem StandsBehind.location_eq_ofOffset (h : l.StandsBehind before text) :
    l.location = Position.ofOffset text before.length := by
  rw [h.location_eq, h.text_eq, Position.ofOffset_length]

theorem StandsBehind.skipBlanks (h : l.StandsBehind before text) :
    l.skipBlanks.StandsBehind (before ++ l.rest.takeWhile Text.isBlank) text := by
  obtain ⟨htext, hoffset, hlocation⟩ :=
    h.pass (List.takeWhile_append_dropWhile (p := Text.isBlank) (l := l.rest)).symm
  exact ⟨htext, hoffset, hlocation⟩

theorem StandsBehind.next (h : l.StandsBehind before text) :
    l.next.2.StandsBehind
      (before ++ l.rest.takeWhile Text.isBlank ++ (Lexeme.ofChars l.skipBlanks.rest).read) text :=
  h.skipBlanks.pass (Lexeme.read_append_rest _).symm

theorem StandsBehind.firstUnblank (h : l.StandsBehind before text) :
    FirstUnblank text l.offset (before ++ l.rest.takeWhile Text.isBlank).length := by
  rw [h.offset_eq, h.skipBlanks.text_eq]
  refine firstUnblank_append (fun c hc => List.mem_takeWhile_imp hc) fun c hc => ?_
  have hstop := List.head?_dropWhile_not Text.isBlank l.rest
  rw [show (l.rest.dropWhile Text.isBlank).head? = some c from hc] at hstop
  exact hstop

theorem exists_standsBehind_after (text : String) (calls : Nat) :
    ∃ before, ((ofText text).after calls).StandsBehind before text.toList := by
  induction calls with
  | zero => exact ⟨[], standsBehind_ofText text⟩
  | succ calls ih =>
      obtain ⟨before, hbefore⟩ := ih
      exact ⟨_, hbefore.next⟩

end Lexer

/-! ## Escapes that break off -/

/-- If a fault is a backslash that starts no escape, what is behind it: a character, or nothing. -/
def LexicalFault.brokenEscape? : LexicalFault → Option (Option Char)
  | .unknownEscape c => some (some c)
  | .unfinishedEscape => some none
  | _ => none

/-- At an offset in a text starts a string literal, and all is well in it up to a backslash at another
offset, which starts no escape with what is behind it. -/
def BrokenEscape (text : List Char) (start backslash : Nat) (next? : Option Char) : Prop :=
  ∃ quote s body rest, (quote = '"' ∨ quote = '\'') ∧ LiteralBody.Spells quote s body ∧
    text.drop start = quote :: body ++ '\\' :: rest ∧ backslash = start + (quote :: body).length ∧
    rest.head? = next? ∧ next?.bind LiteralBody.unescape? = none

/-- Reading breaks off behind the backslash. -/
theorem LiteralBody.exists_broken {quote : Char} {cs : List Char} {fault : LexicalFault}
    {next? : Option Char} (h : (ofChars quote cs).result = .error fault)
    (hfault : fault.brokenEscape? = some next?) :
    ∃ s body rest, Spells quote s body ∧ cs = body ++ '\\' :: rest ∧
      (ofChars quote cs).read = body ++ ['\\'] ∧ rest.head? = next? ∧
      next?.bind unescape? = none := by
  fun_induction ofChars quote cs with
  | case1 =>
      cases h
      cases hfault
  | case2 rest => cases h
  | case3 =>
      cases h
      cases hfault
      exact ⟨[], [], [], .nil, rfl, rfl, rfl, rfl⟩
  | case4 e rest c he _ ih =>
      obtain ⟨s, body, tail, hspells, hcs, hread, hhead, hnone⟩ := ih (map_eq_error h)
      refine ⟨c :: s, '\\' :: e :: body, tail, .escaped he hspells, ?_, ?_, hhead, hnone⟩
      · rw [hcs]
        rfl
      · rw [cons, hread]
        rfl
  | case5 e rest he =>
      cases h
      cases hfault
      exact ⟨[], [], e :: rest, .nil, rfl, rfl, rfl, he⟩
  | case6 c rest hquote hslash ih =>
      obtain ⟨s, body, tail, hspells, hcs, hread, hhead, hnone⟩ := ih (map_eq_error h)
      refine ⟨c :: s, c :: body, tail, .raw hquote hslash hspells, ?_, ?_, hhead, hnone⟩
      · rw [hcs]
        rfl
      · rw [cons, hread]
        rfl

namespace Lexeme

theorem ofInteger_eq_error {sign cs : List Char} {fault : LexicalFault}
    (h : (ofInteger sign cs).result = .error fault) : fault.brokenEscape? = none := by
  simp only [ofInteger] at h
  split at h
  · cases h
  · cases h
    rfl

theorem ofChars_of_quote {quote : Char} (h : quote = '"' ∨ quote = '\'') (rest : List Char) :
    ofChars (quote :: rest) = ofString quote rest := by
  rcases h with rfl | rfl
  · rfl
  · rfl

/-- Escapes are in string literals. -/
theorem exists_quote_of_broken {cs : List Char} {fault : LexicalFault} {next? : Option Char}
    (h : (ofChars cs).result = .error fault) (hfault : fault.brokenEscape? = some next?) :
    ∃ quote rest, (quote = '"' ∨ quote = '\'') ∧ cs = quote :: rest := by
  cases cs with
  | nil => cases h
  | cons c rest =>
      rw [ofChars] at h
      split at h
      · split at h
        · cases h
        · cases h
          cases hfault
      split at h
      · cases h
      split at h
      · cases h
      split at h
      · cases h
      split at h
      · rename_i hquote
        exact ⟨c, rest, by simpa using hquote, rfl⟩
      split at h
      · rw [ofInteger_eq_error h] at hfault
        cases hfault
      split at h
      · rw [ofInteger_eq_error h] at hfault
        cases hfault
      split at h
      · cases h
      · cases h
        cases hfault

/-- A lexeme that breaks off in an escape is a quote, the spelling of a string, and the backslash. -/
theorem exists_broken {cs : List Char} {fault : LexicalFault} {next? : Option Char}
    (h : (ofChars cs).result = .error fault) (hfault : fault.brokenEscape? = some next?) :
    ∃ quote s body rest, (quote = '"' ∨ quote = '\'') ∧ LiteralBody.Spells quote s body ∧
      cs = quote :: body ++ '\\' :: rest ∧ (ofChars cs).read = quote :: body ++ ['\\'] ∧
      rest.head? = next? ∧ next?.bind LiteralBody.unescape? = none := by
  obtain ⟨quote, inner, hquote, rfl⟩ := exists_quote_of_broken h hfault
  rw [ofChars_of_quote hquote] at h ⊢
  obtain ⟨s, body, rest, hspells, rfl, hread, hnext⟩ :=
    LiteralBody.exists_broken (map_eq_error h) hfault
  refine ⟨quote, s, body, rest, hquote, hspells, rfl, ?_, hnext⟩
  rw [ofString, hread]
  rfl

end Lexeme

/-! ## What a lexer reports -/

namespace Lexer

theorem faultPosition_of_broken {fault : LexicalFault} {next? : Option Char}
    (hfault : fault.brokenEscape? = some next?) (start : Position) (read : List Char) :
    faultPosition start read fault = start.advance read.dropLast := by
  cases fault with
  | unknownEscape c | unfinishedEscape => rfl
  | _ => cases hfault

theorem faultPosition_of_not_broken {fault : LexicalFault} (hfault : fault.brokenEscape? = none)
    (start : Position) (read : List Char) : faultPosition start read fault = start := by
  cases fault with
  | unknownEscape c | unfinishedEscape => cases hfault
  | _ => rfl

theorem next_eq_error {l : Lexer} {e : SyntaxError} (h : l.next.1 = .error e) :
    ∃ fault, (Lexeme.ofChars l.skipBlanks.rest).result = .error fault ∧
      e = ⟨faultPosition l.next.2.tokenStart (Lexeme.ofChars l.skipBlanks.rest).read fault,
        .lexical fault⟩ := by
  unfold next at h ⊢
  simp only at h ⊢
  cases hresult : (Lexeme.ofChars l.skipBlanks.rest).result with
  | ok t =>
      rw [hresult] at h
      cases h
  | error fault =>
      rw [hresult] at h
      exact ⟨fault, rfl, (Except.error.inj h).symm⟩

/-- A fault is reported at the start of its lexeme, or at the backslash of an escape that breaks off. -/
theorem StandsBehind.fault_position {before text : List Char} {l : Lexer} {e : SyntaxError}
    (h : l.skipBlanks.StandsBehind before text) (he : l.next.1 = .error e) :
    ∃ fault, e.fault = .lexical fault ∧
      match fault.brokenEscape? with
      | none => e.position = l.next.2.tokenStart
      | some next? => ∃ b, BrokenEscape text before.length b next? ∧
          e.position = Position.ofOffset text b ∧ l.next.2.offset = b + 1 := by
  obtain ⟨fault, hresult, rfl⟩ := next_eq_error he
  refine ⟨fault, rfl, ?_⟩
  split
  · rename_i hfault
    exact faultPosition_of_not_broken hfault _ _
  · rename_i next? hfault
    obtain ⟨quote, s, body, rest, hquote, hspells, hrest, hread, hnext⟩ :=
      Lexeme.exists_broken hresult hfault
    have htext : text = before ++ quote :: body ++ '\\' :: rest := by
      rw [h.text_eq, hrest, List.append_assoc]
    refine ⟨(before ++ quote :: body).length,
      ⟨quote, s, body, rest, hquote, hspells, ?_, ?_, hnext⟩, ?_, ?_⟩
    · rw [h.text_eq, List.drop_left, hrest]
    · rw [List.length_append]
    · rw [htext, Position.ofOffset_length, Position.advance_append, ← h.location_eq,
        faultPosition_of_broken hfault, hread, List.dropLast_concat]
      rfl
    · have hoffset := (h.pass (Lexeme.read_append_rest l.skipBlanks.rest).symm).offset_eq
      rw [hread, ← List.append_assoc, List.length_append, ← hread] at hoffset
      exact hoffset

/-- **A lexer reports true places.** Whatever it was called for before, it stands at an offset of the
text, and the next token starts at the first offset from there on where no blank stands, or at the end
of the text. A fault is reported at this start, or if it is an escape that breaks off, at its backslash,
behind which the lexer then stands. -/
theorem reports_true_places (text : String) (calls : Nat) :
    let chars := text.toList
    let l := (ofText text).after calls
    l.offset ≤ chars.length ∧
    ∃ k, FirstUnblank chars l.offset k ∧ l.next.2.tokenStart = Position.ofOffset chars k ∧
      ∀ e, l.next.1 = .error e → ∃ fault, e.fault = .lexical fault ∧
        match fault.brokenEscape? with
        | none => e.position = l.next.2.tokenStart
        | some next? => ∃ b, BrokenEscape chars k b next? ∧ e.position = Position.ofOffset chars b ∧
            l.next.2.offset = b + 1 := by
  intro chars l
  obtain ⟨before, hl⟩ := exists_standsBehind_after text calls
  have hskip : l.skipBlanks.StandsBehind (before ++ l.rest.takeWhile Text.isBlank) chars :=
    hl.skipBlanks
  exact ⟨hl.offset_le, _, hl.firstUnblank, hskip.location_eq_ofOffset, fun _ => hskip.fault_position⟩

/-- A literal with a line break in it, behind a line break and a blank; the backslash is in the third
line. -/
theorem reports_true_places_in_literal :
    let chars := "a\n 'x\n\\q'".toList
    let l := (ofText "a\n 'x\n\\q'").after 1
    let e : SyntaxError := ⟨⟨3, 1⟩, .lexical (.unknownEscape 'q')⟩
    l.next.1 = .error e ∧ l.next.2.tokenStart = ⟨2, 2⟩ ∧ l.offset ≤ chars.length ∧
    ∃ k, FirstUnblank chars l.offset k ∧ l.next.2.tokenStart = Position.ofOffset chars k ∧
      ∃ fault, e.fault = .lexical fault ∧
        match fault.brokenEscape? with
        | none => e.position = l.next.2.tokenStart
        | some next? => ∃ b, BrokenEscape chars k b next? ∧ e.position = Position.ofOffset chars b ∧
            l.next.2.offset = b + 1 := by
  intro chars l e
  have hnext : l.next.1 = .error e := by decide +kernel
  obtain ⟨hoffset, k, hfirst, hstart, hfault⟩ := reports_true_places "a\n 'x\n\\q'" 1
  exact ⟨hnext, by decide +kernel, hoffset, k, hfirst, hstart, hfault e hnext⟩

end Lexer

end DocPath
