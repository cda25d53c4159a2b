import Mathlib.Data.List.Chain
import DocPath.Proofs.Syntax.Spelling
import DocPath.Proofs.Syntax.Viability

/-!
# Written tokens

Tokens are written one behind the other, with blanks before, between and behind them. A token ends in
front of everything that it cannot go on with (`Apart.endsAt`), so characters are read as the same tokens
in all surroundings that are apart from them (`Prints`). Only a name, a variable or an integer can run into
its neighbour, and only into another one of these; with a blank between them, tokens in any number are read
back one by one, in whatever spelling, and then the end of the text (`Lexer.yields_written`).
-/

namespace DocPath

/-! ## What may stand behind a token -/

/-- Whether characters are apart from a name or a number in front of them. -/
def Apart (cs : List Char) : Prop :=
  ∀ c ∈ cs.head?, Text.isNameChar c = false

theorem Apart.nil : Apart [] := by
  rintro c ⟨⟩

theorem Apart.cons {c : Char} {cs : List Char} (h : Text.isNameChar c = false) :
    Apart (c :: cs) := by
  rintro d ⟨⟩
  exact h

theorem Apart.append {cs rest : List Char} (h : Apart cs) (hrest : Apart rest) :
    Apart (cs ++ rest) := by
  cases cs with
  | nil => exact hrest
  | cons c cs => exact Apart.cons (h c rfl)

/-- Only characters of names lengthen a token. -/
theorem Apart.endsAt {cs : List Char} (h : Apart cs) (t : Token) : t.EndsAt cs := by
  intro c hc
  have hname : Text.isNameChar c = false := h c hc
  cases t with
  | identifier name | «variable» name => exact hname
  | integer n =>
      rw [← Bool.not_eq_true]
      intro hdigit
      rw [Text.isNameChar_of_isDigit hdigit] at hname
      cases hname
  | _ => rfl

/-- The characters are read as the tokens, whatever comes behind them. -/
def Prints (cs : List Char) (ts : List Token) : Prop :=
  ∀ rest us, Apart rest → Reads rest us → Reads (cs ++ rest) (ts ++ us)

namespace Prints

theorem nil : Prints [] [] :=
  fun _ _ _ hreads => hreads

theorem token {t : Token} {cs : List Char} (h : t.Spells cs) : Prints cs [t] :=
  fun _ _ hrest hreads => Reads.cons h (hrest.endsAt t) hreads

theorem append {cs ds : List Char} {ts us : List Token} (h : Prints cs ts) (h' : Prints ds us)
    (hds : Apart ds) : Prints (cs ++ ds) (ts ++ us) := by
  intro rest vs hrest hreads
  rw [List.append_assoc, List.append_assoc]
  exact h _ _ (hds.append hrest) (h' rest vs hrest hreads)

/-- A token in front that nothing lengthens. -/
theorem cons {t : Token} {c : Char} {cs : List Char} {ts : List Token} (ht : t.Spells [c])
    (hends : ∀ d, t.goesOn d = false) (h : Prints cs ts) : Prints (c :: cs) (t :: ts) := by
  intro rest us hrest hreads
  show Reads ([c] ++ (cs ++ rest)) (t :: (ts ++ us))
  exact Reads.cons ht (fun d _ => hends d) (h rest us hrest hreads)

theorem dot {cs : List Char} {ts : List Token} (h : Prints cs ts) :
    Prints ('.' :: cs) (.dot :: ts) :=
  cons .dot (fun _ => rfl) h

theorem brackets {cs : List Char} {ts : List Token} (h : Prints cs ts) :
    Prints ('[' :: cs ++ [']']) (.openBracket :: (ts ++ [.closeBracket])) :=
  cons .openBracket (fun _ => rfl) (h.append (token .closeBracket) (Apart.cons (by decide)))

/-- The characters may stand at the end of the text. -/
theorem reads {cs : List Char} {ts : List Token} (h : Prints cs ts) : Reads cs ts := by
  have hend : Reads [] [] := Reads.blanks (List.forall_mem_nil _)
  have hreads := h [] [] Apart.nil hend
  rwa [List.append_nil, List.append_nil] at hreads

end Prints

/-! ## Neighbours -/

theorem Apart.of_blanks {cs : List Char} (h : ∀ c ∈ cs, Text.isBlank c = true) : Apart cs :=
  fun c hc => Text.isNameChar_of_isBlank (h c (List.mem_of_mem_head? hc))

/-- What stands in front decides. -/
theorem Apart.append_of_ne_nil {cs : List Char} (h : Apart cs) (hne : cs ≠ [])
    (rest : List Char) : Apart (cs ++ rest) := by
  obtain ⟨c, tail, rfl⟩ := List.exists_cons_of_ne_nil hne
  exact Apart.cons (h c rfl)

/-- The tokens that end where other characters start: names, variables and integers. -/
def Token.IsWord : Token → Prop
  | .identifier _ | .integer _ | .variable _ => True
  | .string _ | .dot | .openBracket | .closeBracket | .endOfInput => False

theorem Token.endsAt_of_not_isWord {t : Token} (h : ¬t.IsWord) (rest : List Char) :
    t.EndsAt rest := by
  intro c _
  cases t with
  | identifier name | integer n | «variable» name => exact absurd trivial h
  | _ => rfl

/-- Quotes, dots and brackets are no part of a word. -/
theorem Token.Spells.apart {t : Token} {cs : List Char} (h : t.Spells cs) (ht : ¬t.IsWord) :
    Apart cs := by
  cases h with
  | identifier _ | variableName _ | natural _ _ | negative _ _ => exact absurd trivial ht
  | string hquote _ =>
      rcases hquote with rfl | rfl
      · exact Apart.cons (by decide)
      · exact Apart.cons (by decide)
  | dot | openBracket | closeBracket => exact Apart.cons (by decide)

/-- A token as it stands in a text: in one of its spellings, behind any number of blanks. -/
structure WrittenToken where
  token : Token
  blanks : List Char
  spelling : List Char
  allBlank : ∀ c ∈ blanks, Text.isBlank c = true
  spells : token.Spells spelling

namespace WrittenToken

def chars (w : WrittenToken) : List Char :=
  w.blanks ++ w.spelling

/-- Of two neighbours that are both words, the second one has a blank in front. -/
def Separated (v w : WrittenToken) : Prop :=
  v.token.IsWord → w.token.IsWord → w.blanks ≠ []

/-- The text of written tokens, with more blanks behind the last one. -/
def text (ws : List WrittenToken) (behind : List Char) : String :=
  String.ofList (ws.flatMap chars ++ behind)

/-- A token ends where its neighbour starts. -/
theorem Separated.endsAt {v w : WrittenToken} (h : v.Separated w) (rest : List Char) :
    v.token.EndsAt (w.chars ++ rest) := by
  by_cases hv : v.token.IsWord
  · by_cases hblanks : w.blanks = []
    · have hw : ¬w.token.IsWord := fun hw => h hv hw hblanks
      obtain ⟨c, tail, hspelling, -⟩ := w.spells.exists_cons
      have hne : w.spelling ≠ [] := by
        rw [hspelling]
        exact List.cons_ne_nil _ _
      rw [chars, hblanks, List.nil_append]
      exact ((w.spells.apart hw).append_of_ne_nil hne rest).endsAt v.token
    · rw [chars, List.append_assoc]
      exact ((Apart.of_blanks w.allBlank).append_of_ne_nil hblanks _).endsAt v.token
  · exact Token.endsAt_of_not_isWord hv _

theorem reads {ws : List WrittenToken} (hws : ws.IsChain Separated) {behind : List Char}
    (hbehind : ∀ c ∈ behind, Text.isBlank c = true) :
    Reads (ws.flatMap chars ++ behind) (ws.map token) := by
  induction ws with
  | nil => exact Reads.blanks hbehind
  | cons w ws ih =>
      obtain ⟨hnext, hrest⟩ := List.isChain_cons.mp hws
      have hends : w.token.EndsAt (ws.flatMap chars ++ behind) := by
        cases ws with
        | nil => exact (Apart.of_blanks hbehind).endsAt w.token
        | cons v ws =>
            rw [List.flatMap_cons, List.append_assoc]
            exact (hnext v rfl).endsAt _
      rw [List.flatMap_cons, chars, List.append_assoc, List.append_assoc]
      exact Reads.cons_of_blanks w.allBlank w.spells hends (ih hrest)

end WrittenToken

namespace Lexer

/-- A lexer gives all of its tokens, and then the end of the text. -/
theorem exists_yields_of_tokens {l : Lexer} {ts : List Token} (h : l.tokens = .ok ts) :
    ∃ l', l.Yields ts l' ∧ l'.next.1 = .ok .endOfInput := by
  induction ts generalizing l with
  | nil => exact ⟨l, .nil l, next_of_tokens_nil h⟩
  | cons t ts ih =>
      obtain ⟨hnext, -, hrest⟩ := next_of_tokens_cons h
      obtain ⟨l', hyields, hend⟩ := ih hrest
      exact ⟨l', .cons hnext hyields, hend⟩

/-- **Tokens survive being written and read.** In any spellings, with any blanks before, between and
behind them, of which there must be some between two words, they are read one by one, and then the end
of the text. -/
theorem yields_written (ws : List WrittenToken) (hws : ws.IsChain WrittenToken.Separated)
    (behind : List Char) (hbehind : ∀ c ∈ behind, Text.isBlank c = true) :
    ∃ l, (ofText (WrittenToken.text ws behind)).Yields (ws.map WrittenToken.token) l ∧
      l.next.1 = .ok .endOfInput := by
  have hreads := WrittenToken.reads hws hbehind
  exact exists_yields_of_tokens (hreads (ofText _) String.toList_ofList)

/-- A blank between two words; none around a string in single quotes, with both kinds of quotes and a line
break in it, and none around a dot. -/
theorem yields_written_words_apart :
    ∃ ws : List WrittenToken,
      WrittenToken.text ws ['\u3000'] = "\t$a -5'\\'\\n\"'é1.7\u3000" ∧
      ws.IsChain WrittenToken.Separated ∧
      ws.map WrittenToken.token = [.variable "a", .integer (-5), .string "'\n\"", .identifier "é1", .dot,
        .integer 7] ∧
      ∃ l, (ofText (WrittenToken.text ws ['\u3000'])).Yields (ws.map WrittenToken.token) l ∧
        l.next.1 = .ok .endOfInput := by
  have hnone : ∀ c ∈ ([] : List Char), Text.isBlank c = true := List.forall_mem_nil _
  have hone {c : Char} (hc : Text.isBlank c = true) : ∀ d ∈ [c], Text.isBlank d = true :=
    List.forall_mem_singleton.mpr hc
  have hlatin : Text.IsName "a".toList := ⟨'a', [], rfl, by decide +kernel, List.forall_mem_nil _⟩
  have haccent : Text.IsName "é1".toList :=
    ⟨'é', ['1'], rfl, by decide +kernel, List.forall_mem_singleton.mpr (by decide +kernel)⟩
  have hfive : Numeral.Spells 5 ['5'] :=
    ⟨List.cons_ne_nil _ _, List.forall_mem_singleton.mpr (by decide), rfl⟩
  have hseven : Numeral.Spells 7 ['7'] :=
    ⟨List.cons_ne_nil _ _, List.forall_mem_singleton.mpr (by decide), rfl⟩
  have hbody : LiteralBody.Spells '\'' "'\n\"".toList ['\\', '\'', '\\', 'n', '"'] :=
    .escaped rfl (.escaped rfl (.raw (by decide) (by decide) .nil))
  let a : WrittenToken := ⟨.variable "a", ['\t'], _, hone (by decide +kernel), .variableName hlatin⟩
  let five : WrittenToken := ⟨.integer (-5), [' '], _, hone (by decide +kernel), .negative rfl hfive⟩
  let quoted : WrittenToken := ⟨.string "'\n\"", [], _, hnone, .string (Or.inr rfl) hbody⟩
  let name : WrittenToken := ⟨.identifier "é1", [], _, hnone, .identifier haccent⟩
  let dot : WrittenToken := ⟨.dot, [], _, hnone, .dot⟩
  let seven : WrittenToken := ⟨.integer 7, [], _, hnone, .natural rfl hseven⟩
  have hws : [a, five, quoted, name, dot, seven].IsChain WrittenToken.Separated :=
    .cons_cons (fun _ _ => List.cons_ne_nil _ _) <| .cons_cons (fun _ h => h.elim) <|
      .cons_cons (fun h _ => h.elim) <| .cons_cons (fun _ h => h.elim) <|
      .cons_cons (fun h _ => h.elim) <| .singleton seven
  exact ⟨_, rfl, hws, rfl, yields_written _ hws ['\u3000'] (hone (by decide +kernel))⟩

end Lexer

end DocPath
