import DocPath.Proofs.Syntax.Reading

/-!
# Where reading stops

Tokens are viable if some path starts with them (`Viable`). The machine that builds a path token by
token reads the viable tokens and no others (`viable_iff_after?`): each of its states can still be
completed, and what it refuses no path goes on with. The parser hands it one token after the other
and stops when a token is refused or when there is none to be had. So it stops at the first token
that does not fit behind the ones before it, and says where that token stands
(`Path.parse_stops_at_first_offence`).
-/

namespace DocPath

/-! ## Viable tokens -/

/-- Whether some path starts with the tokens. -/
def Viable (ts : List Token) : Prop :=
  ∃ us p, Derives .path (ts ++ us) p

/-- Whether a token can stand behind others: some path goes on with it or, if it is the end of the
text, ends there. -/
def Fits (ts : List Token) (t : Token) : Prop :=
  if t = .endOfInput then ∃ p, Derives .path ts p else Viable (ts ++ [t])

namespace PartialPath

/-- Behind a complete step the open brackets can be closed, the innermost first. -/
theorem exists_accepts_afterStep (steps : Path) (outer : List Path) :
    ∃ ts p, Accepts ⟨steps, outer, .afterStep⟩ ts p := by
  induction outer generalizing steps with
  | nil => exact ⟨[], steps, ⟨steps, [], .afterStep⟩, rfl, rfl⟩
  | cons around outer ih =>
      obtain ⟨ts, p, haccepts⟩ := ih (around ++ [.nested steps])
      exact ⟨.closeBracket :: ts, p, accepts_cons.mpr ⟨_, rfl, haccepts⟩⟩

/-- At most one token completes the step that is being read. -/
theorem exists_after?_afterStep (s : PartialPath) :
    ∃ ts steps outer, s.after? ts = some ⟨steps, outer, .afterStep⟩ := by
  obtain ⟨steps, outer, spot⟩ := s
  cases spot with
  | head | afterDot | inBrackets => exact ⟨[.identifier "a"], _, _, rfl⟩
  | afterStep => exact ⟨[], _, _, rfl⟩
  | afterKey key => exact ⟨[.closeBracket], _, _, rfl⟩
  | afterVariable name => exact ⟨[.closeBracket], _, _, rfl⟩

/-- Whatever has been read, some path goes on with it. -/
theorem exists_accepts (s : PartialPath) : ∃ ts p, s.Accepts ts p := by
  obtain ⟨ts, steps, outer, hstep⟩ := s.exists_after?_afterStep
  obtain ⟨us, p, done, hafter, hdone⟩ := exists_accepts_afterStep steps outer
  refine ⟨ts ++ us, p, done, ?_, hdone⟩
  rw [after?_append, hstep]
  exact hafter

end PartialPath

open PartialPath

/-- The machine reads the viable tokens and no others. -/
theorem viable_iff_after? {ts : List Token} : Viable ts ↔ ∃ s, start.after? ts = some s := by
  constructor
  · rintro ⟨us, p, hderives⟩
    obtain ⟨done, hafter, _⟩ := hderives.accepts
    rw [after?_append] at hafter
    obtain ⟨s, hs, _⟩ := Option.bind_eq_some_iff.mp hafter
    exact ⟨s, hs⟩
  · rintro ⟨s, hs⟩
    obtain ⟨us, p, done, hafter, hdone⟩ := s.exists_accepts
    refine ⟨us, p, accepts_iff_derives.mp ⟨done, ?_, hdone⟩⟩
    rw [after?_append, hs]
    exact hafter

/-- What the machine refuses does not fit. -/
theorem not_fits_of_refused {ts : List Token} {s : PartialPath} {t : Token}
    {expected : Expectation} (hs : start.after? ts = some s)
    (hfeed : s.feed t = .refused expected) : ¬Fits ts t := by
  unfold Fits
  split
  · rename_i hend
    subst hend
    rintro ⟨p, hderives⟩
    obtain ⟨done, hafter, hdone⟩ := hderives.accepts
    obtain rfl : s = done := Option.some.inj (hs.symm.trans hafter)
    rw [hfeed] at hdone
    cases hdone
  · rw [viable_iff_after?]
    rintro ⟨s', hafter⟩
    have hnext : s.next? t = none := by
      unfold next?
      rw [hfeed]
    rw [after?_append, hs, Option.bind_some, after?_cons, hnext] at hafter
    cases hafter

/-! ## The first tokens of a lexer -/

/-- A lexer gives tokens, one at each call and none of them a fault, and is then another one. -/
inductive Lexer.Yields : Lexer → List Token → Lexer → Prop where
  | nil (l : Lexer) : Yields l [] l
  | cons {l l' : Lexer} {t : Token} {ts : List Token} (hnext : l.next.1 = .ok t)
      (hrest : Yields l.next.2 ts l') : Yields l (t :: ts) l'

theorem Position.advance_append (p : Position) (cs ds : List Char) :
    p.advance (cs ++ ds) = (p.advance cs).advance ds := List.foldl_append

/-- In front of a lexer there are blanks, and the lexeme behind them. -/
theorem Lexer.rest_eq_append (l : Lexer) :
    l.rest = l.rest.takeWhile Text.isBlank ++
      ((Lexeme.ofChars l.skipBlanks.rest).read ++ (Lexeme.ofChars l.skipBlanks.rest).rest) := by
  rw [Lexeme.read_append_rest]
  exact List.takeWhile_append_dropWhile.symm

/-- What a lexer reads in one call: blanks, and the lexeme behind them. -/
theorem Lexer.exists_read_next (l : Lexer) :
    ∃ read, l.rest = read ++ l.next.2.rest ∧ l.next.2.location = l.location.advance read := by
  refine ⟨l.rest.takeWhile Text.isBlank ++ (Lexeme.ofChars l.skipBlanks.rest).read, ?_, ?_⟩
  · rw [List.append_assoc]
    exact l.rest_eq_append
  · rw [Position.advance_append]
    rfl

/-- A lexer knows the place behind what it has read. -/
theorem Lexer.Yields.exists_read {l l' : Lexer} {ts : List Token} (h : l.Yields ts l') :
    ∃ read, l.rest = read ++ l'.rest ∧ l'.location = l.location.advance read := by
  induction h with
  | nil l => exact ⟨[], rfl, rfl⟩
  | @cons l l' t ts hnext _ ih =>
      obtain ⟨first, hfirst, hplace⟩ := l.exists_read_next
      obtain ⟨later, hlater, hbehind⟩ := ih
      refine ⟨first ++ later, ?_, ?_⟩
      · rw [hfirst, hlater, List.append_assoc]
      · rw [hbehind, hplace, Position.advance_append]

/-- The start that a lexer reports for a token is the place where the token stands in the text. -/
theorem Lexer.Yields.exists_start {text : String} {l : Lexer} {ts : List Token} {t : Token}
    (h : (Lexer.ofText text).Yields ts l) (ht : l.next.1 = .ok t) :
    ∃ before behind, text.toList = before ++ behind ∧ (Lexeme.ofChars behind).result = .ok t ∧
      l.next.2.tokenStart = Position.start.advance before := by
  obtain ⟨read, hread, hplace⟩ := h.exists_read
  refine ⟨read ++ l.rest.takeWhile Text.isBlank, l.skipBlanks.rest, ?_, result_of_next ht, ?_⟩
  · rw [List.append_assoc]
    show text.toList = read ++ (_ ++ l.rest.dropWhile Text.isBlank)
    rw [List.takeWhile_append_dropWhile]
    exact hread
  · rw [Position.advance_append]
    show l.location.advance _ = _
    rw [hplace]
    rfl

/-! ## Where a parser stops -/

/-- What stops a machine that is to be given the next token of a lexer: there is none, or the
machine refuses it. -/
def PartialPath.StopsAt (s : PartialPath) (l : Lexer) (e : SyntaxError) : Prop :=
  l.next.1 = .error e ∨ ∃ t expected, l.next.1 = .ok t ∧ s.feed t = .refused expected ∧
    e = ⟨l.next.2.tokenStart, .unexpected expected t⟩

namespace Parser

variable {s : PartialPath} {p : Parser} {l : Lexer} {e : SyntaxError}

/-- What the lexer of a parser goes on with stands behind the token in hand. -/
theorem Holds.yields (hp : p.Holds l) {ts : List Token} {l' : Lexer}
    (hrest : p.lexer.Yields ts l') : l.Yields (p.current :: ts) l' := by
  refine .cons ?_ ?_
  · rw [hp.next_eq]
  · rw [hp.next_eq]
    exact hrest

/-- A parser that fails has handed the machine some tokens of the lexer, and then either could
not get the next one or had it refused. -/
theorem run_eq_error (hp : p.Holds l) (h : (run s p).1 = .error e) :
    ∃ ts l' s', l.Yields ts l' ∧ s.after? ts = some s' ∧ s'.StopsAt l' e := by
  -- the lexer is the one before the token in hand, so it moves on with the parser
  induction s, p using run.induct generalizing l with
  | case1 s p path hfeed =>
      rw [run_of_complete hfeed] at h
      cases h
  | case2 s p expected hfeed =>
      rw [run_of_refused hfeed] at h
      obtain rfl := Except.error.inj h
      refine ⟨[], l, s, .nil l, rfl, Or.inr ⟨p.current, expected, ?_, hfeed, ?_⟩⟩
      · rw [hp.next_eq]
      · rw [hp.next_eq, hp.position_eq]
  | case3 s p s' hfeed p' hadvance ih =>
      rw [run_of_more hfeed hadvance] at h
      obtain ⟨ts, l', done, hyields, hafter, hstop⟩ := ih (holds_of_advance hadvance) h
      refine ⟨p.current :: ts, l', done, hp.yields hyields, ?_, hstop⟩
      rw [after?_cons, next?_eq_some.mpr hfeed]
      exact hafter
  | case4 s p s' hfeed found p' hadvance =>
      rw [run_of_more_error hfeed hadvance] at h
      obtain rfl := Except.error.inj h
      refine ⟨[p.current], p.lexer, s', hp.yields (.nil _), ?_,
        Or.inl (next_of_advance_error hadvance)⟩
      rw [after?_cons, next?_eq_some.mpr hfeed]
      rfl

end Parser

namespace Path

theorem parse_eq_error {text : String} {e : SyntaxError} (h : Path.parse text = .error e) :
    ∃ ts l s, (Lexer.ofText text).Yields ts l ∧ start.after? ts = some s ∧ s.StopsAt l e := by
  unfold Path.parse at h
  split at h
  · rename_i parser hparser
    exact Parser.run_eq_error (Parser.holds_of_ofLexer hparser) h
  · rename_i found hfound
    obtain rfl := Except.error.inj h
    exact ⟨[], _, start, .nil _, rfl, Or.inl (Parser.next_of_ofLexer_error hfound)⟩

/-- **The parser stops at the first offending token.** If a text is refused, some first tokens of
it are viable, and the next one is a fault of the lexer, which is the error that is returned, or it
is a token that does not fit behind them. In that case the error stands where this token starts in
the text, and its message ends with the token. -/
theorem parse_stops_at_first_offence {text : String} {e : SyntaxError}
    (h : Path.parse text = .error e) :
    ∃ ts l, (Lexer.ofText text).Yields ts l ∧ Viable ts ∧
      (l.next.1 = .error e ∨
        ∃ t, l.next.1 = .ok t ∧ ¬Fits ts t ∧ e.position = l.next.2.tokenStart ∧
          (∃ before behind, text.toList = before ++ behind ∧
            (Lexeme.ofChars behind).result = .ok t ∧
            e.position = Position.start.advance before) ∧
          ∃ expected, e.detail = expected ++ "found " ++ t.description) := by
  obtain ⟨ts, l, s, hyields, hafter, hstop⟩ := parse_eq_error h
  refine ⟨ts, l, hyields, viable_iff_after?.mpr ⟨s, hafter⟩, ?_⟩
  rcases hstop with hfault | ⟨t, expected, hnext, hrefused, rfl⟩
  · exact Or.inl hfault
  · obtain ⟨before, behind, htext, htoken, hstart⟩ := hyields.exists_start hnext
    refine Or.inr ⟨t, hnext, not_fits_of_refused hafter hrefused, rfl,
      ⟨before, behind, htext, htoken, hstart⟩, "expected " ++ expected.description ++ ", ", ?_⟩
    show "expected " ++ expected.description ++ ", found " ++ t.description = _
    simp [String.append_assoc]

/-- The name in the second line does not fit; the quote behind it, which is never closed, is not
looked at. -/
theorem parse_stops_at_name_in_brackets :
    let e : SyntaxError := ⟨⟨2, 3⟩, .unexpected .closeBracket (.identifier "b")⟩
    Path.parse "a[$i\n  b '" = .error e ∧
    ∃ ts l, (Lexer.ofText "a[$i\n  b '").Yields ts l ∧ Viable ts ∧
      (l.next.1 = .error e ∨ ∃ t, l.next.1 = .ok t ∧ ¬Fits ts t ∧ e.position = l.next.2.tokenStart ∧
        (∃ before behind, "a[$i\n  b '".toList = before ++ behind ∧
          (Lexeme.ofChars behind).result = .ok t ∧ e.position = Position.start.advance before) ∧
        ∃ expected, e.detail = expected ++ "found " ++ t.description) := by
  intro e
  have hparse : Path.parse "a[$i\n  b '" = .error e := by decide +kernel
  exact ⟨hparse, parse_stops_at_first_offence hparse⟩

end Path

end DocPath
