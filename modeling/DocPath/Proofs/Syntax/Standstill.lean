import DocPath.Proofs.Syntax.Places

/-!
# A lexer that stands still

With each token that it gives, a lexer moves on in its text. It passes over nothing but blanks in front of
a character that starts no token, in front of a `$` without a name, and at the end of the text
(`Lexer.standsStill_iff`). From then on every call is the same call (`Lexer.StandsStill.next_after`).
-/

namespace DocPath

/-! ## Lexemes without characters -/

namespace Lexeme

/-- What is found in front of a text without reading a character of it. -/
inductive IsUnread : Except LexicalFault Token → Prop where
  | endOfInput : IsUnread (.ok .endOfInput)
  | missingVariableName : IsUnread (.error .missingVariableName)
  | strayCharacter (c : Char) : IsUnread (.error (.strayCharacter c))

theorem not_isUnread_ofInteger (sign cs : List Char) : ¬IsUnread (ofInteger sign cs).result := by
  simp only [ofInteger]
  split
  · rintro ⟨⟩
  · rintro ⟨⟩

theorem not_isUnread_of_literalBody {quote : Char} {cs : List Char} {fault : LexicalFault}
    (h : (LiteralBody.ofChars quote cs).result = .error fault) : ¬IsUnread (.error fault) := by
  fun_induction LiteralBody.ofChars quote cs with
  | case1 | case3 | case5 =>
      cases h
      rintro ⟨⟩
  | case2 rest => cases h
  | case4 e rest c he _ ih => exact ih (map_eq_error h)
  | case6 c rest hquote hslash ih => exact ih (map_eq_error h)

theorem not_isUnread_ofString (quote : Char) (cs : List Char) : ¬IsUnread (ofString quote cs).result := by
  simp only [ofString]
  cases hbody : (LiteralBody.ofChars quote cs).result with
  | error fault => exact not_isUnread_of_literalBody hbody
  | ok s => rintro ⟨⟩

theorem read_eq_nil_iff (cs : List Char) : (ofChars cs).read = [] ↔ IsUnread (ofChars cs).result := by
  cases cs with
  | nil => exact iff_of_true rfl .endOfInput
  | cons c rest =>
      rw [ofChars]
      split
      · split
        · exact iff_of_false (List.cons_ne_nil _ _) (by rintro ⟨⟩)
        · exact iff_of_true rfl .missingVariableName
      split
      · exact iff_of_false (List.cons_ne_nil _ _) (by rintro ⟨⟩)
      split
      · exact iff_of_false (List.cons_ne_nil _ _) (by rintro ⟨⟩)
      split
      · exact iff_of_false (List.cons_ne_nil _ _) (by rintro ⟨⟩)
      split
      · exact iff_of_false (List.cons_ne_nil _ _) (not_isUnread_ofString c rest)
      split
      · exact iff_of_false (List.cons_ne_nil _ _) (not_isUnread_ofInteger [c] rest)
      split
      · rename_i hdigit
        exact iff_of_false (by simp [ofInteger, hdigit]) (not_isUnread_ofInteger [] (c :: rest))
      split
      · rename_i hstart
        have hname : Text.isNameChar c = true := Text.isNameChar_of_isNameStart hstart
        exact iff_of_false (by simp [ofIdentifier, hname]) (by rintro ⟨⟩)
      · exact iff_of_true rfl (.strayCharacter c)

end Lexeme

/-! ## Standing still -/

namespace Lexer

variable {l : Lexer}

/-- The next call passes over blanks and nothing else. -/
def StandsStill (l : Lexer) : Prop :=
  ∃ blanks, l.rest = blanks ++ l.next.2.rest ∧ ∀ c ∈ blanks, Text.isBlank c = true

/-- What is behind the blanks does not start with one. -/
theorem isBlank_of_skipBlanks {c : Char} {cs : List Char} (h : l.skipBlanks.rest = c :: cs) :
    Text.isBlank c = false := by
  have hstop := List.head?_dropWhile_not Text.isBlank l.rest
  rw [show l.rest.dropWhile Text.isBlank = c :: cs from h] at hstop
  exact hstop

theorem standsStill_iff_read : l.StandsStill ↔ (Lexeme.ofChars l.skipBlanks.rest).read = [] := by
  constructor
  · rintro ⟨blanks, hrest, hblanks⟩
    have hsplit := l.rest_eq_append
    rw [← List.append_assoc] at hsplit
    have hpassed : blanks = l.rest.takeWhile Text.isBlank ++ (Lexeme.ofChars l.skipBlanks.rest).read :=
      List.append_cancel_right (hrest.symm.trans hsplit)
    cases hread : (Lexeme.ofChars l.skipBlanks.rest).read with
    | nil => rfl
    | cons c cs =>
        have hblank : Text.isBlank c = true := hblanks c (by simp [hpassed, hread])
        have hfirst := Lexeme.read_append_rest l.skipBlanks.rest
        rw [hread] at hfirst
        rw [isBlank_of_skipBlanks hfirst.symm] at hblank
        cases hblank
  · intro hread
    have hrest := l.rest_eq_append
    rw [hread] at hrest
    exact ⟨_, hrest, fun c hc => List.mem_takeWhile_imp hc⟩

/-- A call that passes over nothing but blanks finds the end of the text, a `$` without a name, or a
character that starts no token. -/
theorem standsStill_iff :
    l.StandsStill ↔ l.next.1 = .ok .endOfInput ∨ ∃ e, l.next.1 = .error e ∧
      (e.fault = .lexical .missingVariableName ∨ ∃ c, e.fault = .lexical (.strayCharacter c)) := by
  rw [standsStill_iff_read, Lexeme.read_eq_nil_iff]
  constructor
  · intro h
    simp only [next]
    cases hresult : (Lexeme.ofChars l.skipBlanks.rest).result with
    | ok t =>
        rw [hresult] at h
        cases h
        exact Or.inl rfl
    | error fault =>
        rw [hresult] at h
        refine Or.inr ⟨_, rfl, ?_⟩
        cases h with
        | missingVariableName => exact Or.inl rfl
        | strayCharacter c => exact Or.inr ⟨c, rfl⟩
  · rintro (hend | ⟨e, he, hfault⟩)
    · rw [result_of_next hend]
      exact .endOfInput
    · obtain ⟨fault, hresult, rfl⟩ := next_eq_error he
      rw [hresult]
      rcases hfault with hfault | ⟨c, hfault⟩
      · cases hfault
        exact .missingVariableName
      · cases hfault
        exact .strayCharacter c

/-- Behind the blanks there are none to pass over. -/
theorem skipBlanks_skipBlanks (l : Lexer) : l.skipBlanks.skipBlanks = l.skipBlanks := by
  have hnone : l.skipBlanks.rest.takeWhile Text.isBlank = [] := by
    cases hrest : l.skipBlanks.rest with
    | nil => rfl
    | cons c cs => exact List.takeWhile_cons_of_neg (by simp [isBlank_of_skipBlanks hrest])
  have hall : l.skipBlanks.rest.dropWhile Text.isBlank = l.skipBlanks.rest := by
    have hsplit := List.takeWhile_append_dropWhile (p := Text.isBlank) (l := l.skipBlanks.rest)
    rwa [hnone, List.nil_append] at hsplit
  rw [skipBlanks, hnone, hall]
  rfl

theorem StandsStill.next_eq_skipBlanks (h : l.StandsStill) : l.next.2 = l.skipBlanks := by
  have hread := standsStill_iff_read.mp h
  have hrest := Lexeme.read_append_rest l.skipBlanks.rest
  rw [hread, List.nil_append] at hrest
  simp only [next]
  rw [hread, hrest]
  rfl

/-- The first call has passed over the blanks, the second one has none to pass over. -/
theorem StandsStill.next_next (h : l.StandsStill) : l.next.2.next = l.next := by
  rw [h.next_eq_skipBlanks, next, skipBlanks_skipBlanks]
  rfl

theorem StandsStill.next_after (h : l.StandsStill) (calls : Nat) : (l.after calls).next = l.next := by
  induction calls with
  | zero => rfl
  | succ calls ih =>
      rw [after, ih]
      exact h.next_next

/-- A token that is not the end of the text moves the lexer on. -/
theorem offset_lt_next {t : Token} (h : l.next.1 = .ok t) (ht : t ≠ .endOfInput) :
    l.offset < l.next.2.offset := by
  have hread := List.length_pos_iff.mpr (Lexeme.read_ne_nil (result_of_next h) ht)
  show l.offset < l.offset + (l.rest.takeWhile Text.isBlank).length +
    (Lexeme.ofChars l.skipBlanks.rest).read.length
  omega

end Lexer

end DocPath
