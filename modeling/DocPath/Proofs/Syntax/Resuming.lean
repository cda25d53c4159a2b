import DocPath.Proofs.Syntax.Places

/-!
# A parser that is called again

A parser may be asked for a path again, whatever it answered before: behind a failure it goes on with
the token in its hand, or with the end of input if the token was taken out of the hand before there was
another one. A path is only returned at a true end of input. There the parser has read its text to the
end (`Parser.IsSpent`), and no token comes after it, so each later call fails like the first of them, at
the end of the text (`Parser.yields_at_most_one_path`).
-/

namespace DocPath

namespace Parser

/-- The parser that is left when another one was asked for a path a number of times, whatever that
gave. -/
def after (p : Parser) : Nat → Parser
  | 0 => p
  | calls + 1 => (p.after calls).parse.2

/-- The lexer of a parser stands somewhere in a text. -/
def ReadsFrom (text : List Char) (p : Parser) : Prop :=
  ∃ before, p.lexer.StandsBehind before text

/-- A parser has read all of a text: it has the end of input in hand, which stands at the end. -/
structure IsSpent (text : List Char) (p : Parser) : Prop where
  current_eq : p.current = .endOfInput
  position_eq : p.position = Position.ofOffset text text.length

variable {text : List Char} {s : PartialPath} {p p' : Parser} {l : Lexer}

/-! ## One call -/

theorem ofLexer_of_next {t : Token} (h : l.next.1 = .ok t) :
    ofLexer l = .ok ⟨l.next.2, t, l.next.2.tokenStart⟩ := by
  have hpair : l.next = (.ok t, l.next.2) := by rw [← h]
  rw [ofLexer, hpair]

theorem lexer_advance (p : Parser) (taken : Bool) : (p.advance taken).2.lexer = p.lexer.next.2 := by
  unfold advance
  split
  · rename_i hnext
    rw [hnext]
  · rename_i hnext
    rw [hnext]

theorem ReadsFrom.of_advance {taken : Bool} {result : Except SyntaxError Unit}
    (h : p.ReadsFrom text) (hadvance : p.advance taken = (result, p')) : p'.ReadsFrom text := by
  obtain ⟨before, hbefore⟩ := h
  have hlexer : p'.lexer = p.lexer.next.2 := by rw [← lexer_advance p taken, hadvance]
  unfold ReadsFrom
  rw [hlexer]
  exact ⟨_, hbefore.next⟩

theorem ReadsFrom.run (h : p.ReadsFrom text) (s : PartialPath) : (run s p).2.ReadsFrom text := by
  induction s, p using run.induct with
  | case1 s p path hfeed =>
      rw [run_of_complete hfeed]
      exact h
  | case2 s p expected hfeed =>
      rw [run_of_refused hfeed]
      exact h
  | case3 s p s' hfeed p' hadvance ih =>
      rw [run_of_more hfeed hadvance]
      exact ih (h.of_advance hadvance)
  | case4 s p s' hfeed e p' hadvance =>
      rw [run_of_more_error hfeed hadvance]
      exact h.of_advance hadvance

/-- The end of input that a lexer gives stands at the end of the text. -/
theorem Holds.isSpent (hp : p.Holds l) {before : List Char} (hl : l.StandsBehind before text)
    (hend : p.current = .endOfInput) : p.IsSpent text := by
  have hnext : l.next.1 = .ok .endOfInput := by rw [hp.next_eq, hend]
  have hskip := hl.skipBlanks
  have hrest : l.skipBlanks.rest = [] := Lexeme.eq_nil_of_endOfInput (Lexer.result_of_next hnext)
  have htext := hskip.text_eq
  rw [hrest, List.append_nil] at htext
  have hstart : p.position = l.skipBlanks.location := by
    rw [hp.position_eq, show p.lexer = l.next.2 by rw [hp.next_eq]]
    rfl
  refine ⟨hend, ?_⟩
  rw [hstart, hskip.location_eq_ofOffset, ← htext]

/-- A path is returned with the true end of input in hand, never with an empty one. -/
theorem isSpent_of_run {path : Path} (hp : p.ReadsFrom text)
    (hdone : ∀ q, s.feed p.current = .complete q → p.IsSpent text)
    (h : (run s p).1 = .ok path) : (run s p).2.IsSpent text := by
  -- a token that was read on the way is a true one; only the first may be missing
  induction s, p using run.induct with
  | case1 s p found hfeed =>
      rw [run_of_complete hfeed]
      exact hdone found hfeed
  | case2 s p expected hfeed =>
      rw [run_of_refused hfeed] at h
      cases h
  | case3 s p s' hfeed p' hadvance ih =>
      rw [run_of_more hfeed hadvance] at h ⊢
      refine ih (hp.of_advance hadvance) ?_ h
      intro q hcomplete
      obtain ⟨before, hbefore⟩ := hp
      exact (holds_of_advance hadvance).isSpent hbefore
        (PartialPath.eq_endOfInput_of_complete hcomplete)
  | case4 s p s' hfeed e p' hadvance =>
      rw [run_of_more_error hfeed hadvance] at h
      cases h

theorem feed_start_ne_complete (t : Token) (q : Path) : PartialPath.start.feed t ≠ .complete q := by
  cases t <;> simp [PartialPath.feed, PartialPath.start, PartialPath.feedHead]

theorem isSpent_of_parse {path : Path} (hp : p.ReadsFrom text) (h : p.parse.1 = .ok path) :
    p.parse.2.IsSpent text := by
  refine isSpent_of_run hp ?_ h
  intro q hcomplete
  exact absurd hcomplete (feed_start_ne_complete p.current q)

/-- No path starts at the end of input, and the parser stays there. -/
theorem IsSpent.parse_eq (h : p.IsSpent text) :
    p.parse = (.error ⟨Position.ofOffset text text.length, .unexpected .head .endOfInput⟩, p) := by
  have hfeed : PartialPath.start.feed p.current = .refused .head := by
    rw [h.current_eq]
    rfl
  rw [parse, run_of_refused hfeed, h.current_eq, h.position_eq]

/-! ## Many calls -/

theorem ReadsFrom.after (h : p.ReadsFrom text) (calls : Nat) : (p.after calls).ReadsFrom text := by
  induction calls with
  | zero => exact h
  | succ calls ih => exact ih.run PartialPath.start

theorem IsSpent.after (h : p.IsSpent text) (calls : Nat) : p.after calls = p := by
  induction calls with
  | zero => rfl
  | succ calls ih => rw [Parser.after, ih, h.parse_eq]

theorem after_add (p : Parser) (m n : Nat) : p.after (m + n) = (p.after m).after n := by
  induction n with
  | zero => rfl
  | succ n ih =>
      show (p.after (m + n)).parse.2 = ((p.after m).after n).parse.2
      rw [ih]

theorem readsFrom_ofLexer {text : String} {skipped : Nat}
    (h : ofLexer ((Lexer.ofText text).after skipped) = .ok p) : p.ReadsFrom text.toList := by
  obtain ⟨before, hbefore⟩ := Lexer.exists_standsBehind_after text skipped
  have hlexer : p.lexer = ((Lexer.ofText text).after skipped).next.2 := by
    rw [(holds_of_ofLexer h).next_eq]
  unfold ReadsFrom
  rw [hlexer]
  exact ⟨_, hbefore.next⟩

/-- **A parser yields at most one path.** Whatever was skipped before and however many calls failed, of
all the calls at most one returns a path. All later ones return one and the same error: a path should
start where the text ends. -/
theorem yields_at_most_one_path {text : String} {skipped : Nat} {p : Parser}
    (hp : ofLexer ((Lexer.ofText text).after skipped) = .ok p) {i : Nat} {path : Path}
    (hi : (p.after i).parse.1 = .ok path) :
    (∀ j q, (p.after j).parse.1 = .ok q → j = i) ∧
    ∃ e : SyntaxError, e.position = Position.ofOffset text.toList text.toList.length ∧
      e.detail = "expected field name, variable or '[', found end of input" ∧
      ∀ j, i < j → (p.after j).parse.1 = .error e := by
  have hreads := readsFrom_ofLexer hp
  -- behind a path, nothing but this error comes
  have hlater : ∀ {i j q}, (p.after i).parse.1 = .ok q → i < j → (p.after j).parse.1 =
      .error ⟨Position.ofOffset text.toList text.toList.length, .unexpected .head .endOfInput⟩ := by
    intro i j q hq hij
    have hspent : (p.after (i + 1)).IsSpent text.toList := isSpent_of_parse (hreads.after i) hq
    obtain ⟨more, rfl⟩ := Nat.exists_eq_add_of_le hij
    rw [after_add, hspent.after, hspent.parse_eq]
  refine ⟨?_, _, rfl, rfl, fun j => hlater hi⟩
  intro j q hj
  rcases Nat.lt_trichotomy j i with hlt | heq | hgt
  · rw [hlater hj hlt] at hi
    cases hi
  · exact heq
  · rw [hlater hi hgt] at hj
    cases hj

/-- The first call fails at the open quote, with the name in front of it still in hand. The second one
returns it as a path of its own. -/
theorem yields_at_most_one_path_behind_fault :
    let l := (Lexer.ofText "] a.b 'c\n").after 1
    let p : Parser := ⟨l.next.2, .identifier "a", l.next.2.tokenStart⟩
    ofLexer l = .ok p ∧
    (p.after 0).parse.1 = .error ⟨⟨1, 7⟩, .lexical .missingClosingQuote⟩ ∧
    (p.after 1).parse.1 = .ok [.name "b"] ∧
    (∀ j q, (p.after j).parse.1 = .ok q → j = 1) ∧
    ∃ e : SyntaxError, e.position = ⟨2, 1⟩ ∧
      e.detail = "expected field name, variable or '[', found end of input" ∧
      ∀ j, 1 < j → (p.after j).parse.1 = .error e := by
  intro l p
  have hp : ofLexer l = .ok p := ofLexer_of_next (by decide +kernel)
  have hfault : (p.after 0).parse.1 = .error ⟨⟨1, 7⟩, .lexical .missingClosingQuote⟩ := by
    decide +kernel
  have hpath : (p.after 1).parse.1 = .ok [.name "b"] := by decide +kernel
  exact ⟨hp, hfault, hpath, yields_at_most_one_path hp hpath⟩

end Parser

end DocPath
