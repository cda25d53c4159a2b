import DocPath.Proofs.Path.Printing

/-!
# Texts behind one another

A token ends where it cannot go on (`Lexeme.endsAt_rest`), and where it starts plays no part in what it
is. So a text that has its tokens has the same ones in front of other characters, if these do not
lengthen a token (`Lexer.prints_tokens`): what is joined is neither fused nor cut at the seam. The steps
behind a path may then be written behind its text (`Path.parse_append`), and the text of another path may
be written there as well, or in brackets (`Path.texts_compose`).
-/

namespace DocPath

/-! ## Where a token starts -/

namespace Lexer

theorem tokens_congr {l l' : Lexer} (h : l.next = l'.next) : l.tokens = l'.tokens := by
  cases hnext : l.next.1 with
  | error e =>
      have hnext' : l'.next.1 = .error e := by rw [← h, hnext]
      rw [tokens_of_error hnext, tokens_of_error hnext']
  | ok t =>
      have hnext' : l'.next.1 = .ok t := by rw [← h, hnext]
      by_cases ht : t = .endOfInput
      · subst ht
        rw [tokens_of_end hnext, tokens_of_end hnext']
      · rw [tokens_of_token hnext ht, tokens_of_token hnext' ht, h]

/-- Blanks are skipped all at once or some of them before the others. -/
theorem next_pass_blanks {l : Lexer} {blanks cs : List Char} (hrest : l.rest = blanks ++ cs)
    (hblanks : ∀ c ∈ blanks, Text.isBlank c = true) : (l.pass blanks cs).next = l.next := by
  have hskip : (l.pass blanks cs).skipBlanks = l.skipBlanks := by
    simp only [skipBlanks, pass, hrest, List.takeWhile_append_of_pos hblanks,
      List.dropWhile_append_of_pos hblanks, Position.advance, List.foldl_append,
      List.length_append, Nat.add_assoc]
  simp only [next, hskip]

end Lexer

theorem Reads.of_blanks {blanks cs : List Char} {ts : List Token}
    (hblanks : ∀ c ∈ blanks, Text.isBlank c = true) (h : Reads cs ts) : Reads (blanks ++ cs) ts := by
  intro l hl
  have hpassed : (l.pass blanks cs).tokens = .ok ts := h (l.pass blanks cs) rfl
  rwa [Lexer.tokens_congr (Lexer.next_pass_blanks hl hblanks)] at hpassed

/-- **A text keeps its tokens in front of other characters.** -/
theorem Lexer.prints_tokens {l : Lexer} {ts : List Token} (h : l.tokens = .ok ts) :
    Prints l.rest ts := by
  -- along the tokens: each stands behind some blanks and ends where the next characters start
  induction ts generalizing l with
  | nil =>
      have hend : l.rest.dropWhile Text.isBlank = [] :=
        Lexeme.eq_nil_of_endOfInput (result_of_next (next_of_tokens_nil h))
      have hblanks : ∀ c ∈ l.rest, Text.isBlank c = true := List.dropWhile_eq_nil_iff.mp hend
      exact fun rest us _ hreads => Reads.of_blanks hblanks hreads
  | cons t ts ih =>
      obtain ⟨hnext, ht, hts⟩ := next_of_tokens_cons h
      have hresult := result_of_next hnext
      let lexeme := Lexeme.ofChars l.skipBlanks.rest
      let blanks := l.rest.takeWhile Text.isBlank
      have hrest : l.rest = blanks ++ (lexeme.read ++ lexeme.rest) := l.rest_eq_append
      have hblanks : ∀ c ∈ blanks, Text.isBlank c = true := fun c hc => List.mem_takeWhile_imp hc
      intro rest us hapart hreads
      have hends : t.EndsAt (lexeme.rest ++ rest) :=
        (Lexeme.endsAt_rest hresult).append (hapart.endsAt t)
      rw [hrest, List.append_assoc, List.append_assoc]
      exact Reads.cons_of_blanks hblanks (Lexeme.spells_read hresult ht) hends
        (ih hts rest us hapart hreads)

/-! ## Joined texts -/

/-- More steps may be read behind a path. -/
theorem Derives.append_steps {ts us : List Token} {p q : Path} (hp : Derives .path ts p)
    (hq : Derives .steps us q) : Derives .path (ts ++ us) (p ++ q) := by
  rw [← accepts_iff_derives]
  have hpath : PartialPath.start.after? ts = some ⟨p, [], .afterStep⟩ := (after?_of_derives hp []).1
  refine ⟨⟨p ++ q, [], .afterStep⟩, ?_, rfl⟩
  rw [PartialPath.after?_append, hpath]
  exact after?_of_derives hq p []

/-- **Steps may be written behind a path.** -/
theorem Path.parse_append {t u : String} {p q : Path} {us : List Token} (hp : Path.parse t = .ok p)
    (hapart : Apart u.toList) (hreads : Reads u.toList us) (hq : Derives .steps us q) :
    Path.parse (t ++ u) = .ok (p ++ q) := by
  obtain ⟨ts, htokens, hderives⟩ := parse_eq_ok_iff.mp hp
  refine parse_eq_ok_iff.mpr ⟨ts ++ us, ?_, hderives.append_steps hq⟩
  have hjoined := Lexer.prints_tokens htokens u.toList us hapart hreads
  exact hjoined (Lexer.ofText (t ++ u)) String.toList_append

/-- Blanks and brackets are apart from a word in front of them. -/
theorem Lexer.apart_rest {l : Lexer} {t : Token} {ts : List Token} (h : l.tokens = .ok (t :: ts))
    (ht : ¬t.IsWord) : Apart l.rest := by
  obtain ⟨hnext, hend, -⟩ := next_of_tokens_cons h
  have hresult := result_of_next hnext
  have hblanks : Apart (l.rest.takeWhile Text.isBlank) :=
    Apart.of_blanks fun c hc => List.mem_takeWhile_imp hc
  have hread : Apart (Lexeme.ofChars l.skipBlanks.rest).read :=
    (Lexeme.spells_read hresult hend).apart ht
  rw [l.rest_eq_append]
  exact hblanks.append (hread.append_of_ne_nil (Lexeme.read_ne_nil hresult hend) _)

/-- A path that starts with a bracket goes on with another one as it is. -/
theorem Derives.steps_of_openBracket {ts : List Token} {p : Path} (h : Derives .path ts p)
    (hfirst : ts.head? = some .openBracket) : Derives .steps ts p := by
  cases h with
  | path head tail =>
      cases head with
      | nameHead name | variableHead name => cases hfirst
      | bracketsHead inner => exact .moreSteps (.bracketsStep inner) tail

/-- Any other path goes on with another one behind a dot. -/
theorem Derives.steps_of_dot {ts : List Token} {p : Path} {name : String}
    (h : Derives .path ts p)
    (hfirst : ts.head? = some (.identifier name) ∨ ts.head? = some (.variable name)) :
    Derives .steps (.dot :: ts) p := by
  cases h with
  | path head tail =>
      cases head with
      | nameHead name => exact .moreSteps (.dotName name) tail
      | variableHead name => exact .moreSteps (.dotVariable name) tail
      | bracketsHead inner => rcases hfirst with h | h <;> cases h

/-- In brackets, a path is a nested path, unless a variable is all there is. -/
theorem Derives.nested_in_brackets {ts : List Token} {p : Path} (h : Derives .path ts p)
    (hlone : ∀ name, ts ≠ [.variable name]) : Derives .brackets ts [.nested p] := by
  cases h with
  | path head tail =>
      cases head with
      | nameHead name => exact .nestedPath (.path (.nameHead name) tail) trivial
      | bracketsHead inner => exact .nestedPath (.path (.bracketsHead inner) tail) trivial
      | variableHead name =>
          cases tail with
          | noStep => exact (hlone name rfl).elim
          | @moreSteps ts us p q first rest =>
              show Derives .brackets (.variable name :: (ts ++ us))
                [.nested (.variable name :: (p ++ q))]
              exact .variablePath name first rest

theorem Path.parse_append_brackets {t u : String} {p : Path} {us : List Token} {segment : Segment}
    (hp : Path.parse t = .ok p) (hus : (Lexer.ofText u).tokens = .ok us)
    (hq : Derives .brackets us [segment]) :
    Path.parse (t ++ "[" ++ u ++ "]") = .ok (p ++ [segment]) := by
  have hprints : Prints u.toList us := Lexer.prints_tokens hus
  have htext : t ++ "[" ++ u ++ "]" = t ++ ("[" ++ u ++ "]") := by
    simp only [String.append_assoc]
  have hchars : ("[" ++ u ++ "]").toList = '[' :: u.toList ++ [']'] := by
    rw [String.toList_append, String.toList_append]
    rfl
  rw [htext]
  refine parse_append hp ?_ ?_ (.moreSteps (.bracketsStep hq) .noStep)
  · rw [hchars]
    exact Apart.cons (by decide)
  · rw [hchars, List.append_nil]
    exact hprints.brackets.reads

/-- **Texts of paths compose.** Behind a path, another path goes on with it, as it is if it starts with a
bracket, and behind a dot if it starts with a name or a variable. In brackets it becomes one more step: the
variable, if that is all there is between the brackets, and a nested path otherwise. -/
theorem Path.texts_compose {t u : String} {p q : Path} (hp : Path.parse t = .ok p)
    (hq : Path.parse u = .ok q) :
    ∃ us, (Lexer.ofText u).tokens = .ok us ∧
      (us.head? = some .openBracket → Path.parse (t ++ u) = .ok (p ++ q)) ∧
      (∀ name, us.head? = some (.identifier name) ∨ us.head? = some (.variable name) →
        Path.parse (t ++ "." ++ u) = .ok (p ++ q)) ∧
      (∀ name, us = [.variable name] →
        Path.parse (t ++ "[" ++ u ++ "]") = .ok (p ++ [.variable name])) ∧
      ((∀ name, us ≠ [.variable name]) →
        Path.parse (t ++ "[" ++ u ++ "]") = .ok (p ++ [.nested q])) := by
  obtain ⟨us, hus, hderives⟩ := parse_eq_ok_iff.mp hq
  have hprints : Prints u.toList us := Lexer.prints_tokens hus
  refine ⟨us, hus, ?_, ?_, ?_, ?_⟩
  · intro hbracket
    have hsteps : Derives .steps us q := hderives.steps_of_openBracket hbracket
    obtain ⟨ts, rfl⟩ := List.head?_eq_some_iff.mp hbracket
    exact parse_append hp (Lexer.apart_rest hus id) hprints.reads hsteps
  · intro name hword
    have hsteps : Derives .steps (.dot :: us) q := hderives.steps_of_dot hword
    have hchars : ("." ++ u).toList = '.' :: u.toList := String.toList_append
    rw [String.append_assoc]
    refine parse_append hp ?_ ?_ hsteps
    · rw [hchars]
      exact Apart.cons (by decide)
    · rw [hchars]
      exact hprints.dot.reads
  · rintro name rfl
    exact parse_append_brackets hp hus (.loneVariable name)
  · intro hlone
    exact parse_append_brackets hp hus (hderives.nested_in_brackets hlone)

/-- A blank at each seam, brackets and a dot in a string, and a variable that is alone in the brackets or
in brackets of its own. -/
theorem Path.texts_compose_at_seams :
    let t := "a[-1] "
    let p : Path := [.name "a", .index (.int (-1))]
    Path.parse t = .ok p ∧
    Path.parse (t ++ "\t['].$'].b") = .ok (p ++ [.index (.str "].$"), .name "b"]) ∧
    Path.parse (t ++ "." ++ " $x[0]") = .ok (p ++ [.variable "x", .index (.int 0)]) ∧
    Path.parse (t ++ "[" ++ " $x " ++ "]") = .ok (p ++ [.variable "x"]) ∧
    Path.parse (t ++ "[" ++ "[$x]" ++ "]") = .ok (p ++ [.nested [.variable "x"]]) := by
  intro t p
  have hp : Path.parse t = .ok p := by decide +kernel
  refine ⟨hp, ?_, ?_, ?_, ?_⟩
  · have hq : Path.parse "\t['].$'].b" = .ok [.index (.str "].$"), .name "b"] := by decide +kernel
    have htokens : (Lexer.ofText "\t['].$'].b").tokens =
        .ok [.openBracket, .string "].$", .closeBracket, .dot, .identifier "b"] := by decide +kernel
    obtain ⟨us, hus, hbracket, -⟩ := texts_compose hp hq
    cases hus.symm.trans htokens
    exact hbracket rfl
  · have hq : Path.parse " $x[0]" = .ok [.variable "x", .index (.int 0)] := by decide +kernel
    have htokens : (Lexer.ofText " $x[0]").tokens =
        .ok [.variable "x", .openBracket, .integer 0, .closeBracket] := by decide +kernel
    obtain ⟨us, hus, -, hword, -⟩ := texts_compose hp hq
    cases hus.symm.trans htokens
    exact hword "x" (Or.inr rfl)
  · have hq : Path.parse " $x " = .ok [.variable "x"] := by decide +kernel
    have htokens : (Lexer.ofText " $x ").tokens = .ok [.variable "x"] := by decide +kernel
    obtain ⟨us, hus, -, -, hlone, -⟩ := texts_compose hp hq
    cases hus.symm.trans htokens
    exact hlone "x" rfl
  · have hq : Path.parse "[$x]" = .ok [.variable "x"] := by decide +kernel
    have htokens : (Lexer.ofText "[$x]").tokens =
        .ok [.openBracket, .variable "x", .closeBracket] := by decide +kernel
    obtain ⟨us, hus, -, -, -, hnested⟩ := texts_compose hp hq
    cases hus.symm.trans htokens
    exact hnested nofun

end DocPath
