import Mathlib.Data.List.TakeWhile
import DocPath.Proofs.Syntax.Reading

/-!
# The spelling of tokens

Which characters a token may be written in (`Token.Spells`), and that the lexer reads
exactly these. A token that is read was spelled (`Lexeme.spells_read`) and ends where it
cannot go on (`Lexeme.endsAt_rest`), and a spelled token is read whenever nothing behind it
would lengthen it (`Lexeme.ofChars_of_spells`), so characters have their tokens piece by
piece (`Reads`).
-/

namespace DocPath

/-! ## Characters that start no other token -/

namespace Text

/-- The code points of closed ranges. -/
def points (ranges : List (Nat × Nat)) : List Nat :=
  ranges.flatMap fun range => List.range' range.1 (range.2 + 1 - range.1)

theorem toNat_mem_points {ranges : List (Nat × Nat)} {c : Char}
    (h : inRanges ranges c = true) : c.toNat ∈ points ranges := by
  simp only [inRanges, List.any_eq_true, Bool.and_eq_true, decide_eq_true_eq] at h
  obtain ⟨range, hrange, hlow, hhigh⟩ := h
  refine List.mem_flatMap.mpr ⟨range, hrange, List.mem_range'_1.mpr ⟨hlow, ?_⟩⟩
  omega

theorem isNameChar_of_isBlank {c : Char} (h : isBlank c = true) : isNameChar c = false := by
  -- the blanks are few, so each of them is looked up
  have hpoints : ∀ n ∈ points blankRanges, isNameChar (Char.ofNat n) = false := by
    decide +kernel
  have hc := hpoints c.toNat (toNat_mem_points h)
  rwa [Char.ofNat_toNat] at hc

theorem isBlank_of_isNameChar {c : Char} (h : isNameChar c = true) : isBlank c = false := by
  rw [Bool.eq_false_iff]
  intro hblank
  rw [isNameChar_of_isBlank hblank] at h
  cases h

theorem isNameChar_of_isDigit {c : Char} (h : c.isDigit = true) : isNameChar c = true := by
  have hc := Char.isDigit_iff_toNat.mp h
  simp only [Char.reduceToNat] at hc
  have hlow : c.toNat < 0x80 := by omega
  simp [isNameChar, isNumeric, hlow, h]

theorem isDigit_of_isNameStart {c : Char} (h : isNameStart c = true) : c.isDigit = false := by
  rw [Bool.eq_false_iff]
  intro hdigit
  have hdigits : ∀ n ∈ List.range' 48 10, isNameStart (Char.ofNat n) = false := by
    decide +kernel
  have hc := Char.isDigit_iff_toNat.mp hdigit
  simp only [Char.reduceToNat] at hc
  have hstart := hdigits c.toNat (List.mem_range'_1.mpr (by omega))
  rw [Char.ofNat_toNat, h] at hstart
  cases hstart

theorem ne_of_isNameStart {c d : Char} (h : isNameStart c = true)
    (hd : isNameStart d = false) : c ≠ d := by
  rintro rfl
  rw [h] at hd
  cases hd

theorem IsName.isNameChar {name : List Char} (h : IsName name) : ∀ c ∈ name, isNameChar c = true := by
  obtain ⟨first, rest, rfl, hfirst, hrest⟩ := h
  intro c hc
  rcases List.mem_cons.mp hc with rfl | hc
  · exact isNameChar_of_isNameStart hfirst
  · exact hrest c hc

end Text

/-! ## Spelled tokens -/

/-- The ways to write the characters of a string between two quotes: each as it is, if it
does not end the string or start an escape, or as an escape that stands for it. -/
inductive LiteralBody.Spells (quote : Char) : List Char → List Char → Prop where
  | nil : Spells quote [] []
  | raw {c s cs} (hquote : c ≠ quote) (hslash : c ≠ '\\') (rest : Spells quote s cs) :
      Spells quote (c :: s) (c :: cs)
  | escaped {c e s cs} (he : unescape? e = some c) (rest : Spells quote s cs) :
      Spells quote (c :: s) ('\\' :: e :: cs)

/-- The digits of a number, possibly with zeros in front. -/
def Numeral.Spells (n : Nat) (cs : List Char) : Prop :=
  cs ≠ [] ∧ (∀ c ∈ cs, c.isDigit = true) ∧ Numeral.value cs = n

/-- **The lexical grammar.** The ways to write a token. The end of the text is not
written. -/
inductive Token.Spells : Token → List Char → Prop where
  | identifier {name : String} (h : Text.IsName name.toList) :
      Spells (.identifier name) name.toList
  | variableName {name : String} (h : Text.IsName name.toList) :
      Spells (.variable name) ('$' :: name.toList)
  | natural {n : Int64} {m : Nat} {cs} (hn : n.toInt = m) (h : Numeral.Spells m cs) :
      Spells (.integer n) cs
  | negative {n : Int64} {m : Nat} {cs} (hn : n.toInt = -m) (h : Numeral.Spells m cs) :
      Spells (.integer n) ('-' :: cs)
  | string {quote : Char} {s : String} {cs} (hquote : quote = '"' ∨ quote = '\'')
      (h : LiteralBody.Spells quote s.toList cs) :
      Spells (.string s) (quote :: cs ++ [quote])
  | dot : Spells .dot ['.']
  | openBracket : Spells .openBracket ['[']
  | closeBracket : Spells .closeBracket [']']

/-- Whether a token could go on with a character behind it. -/
def Token.goesOn : Token → Char → Bool
  | .identifier _ | .variable _ => Text.isNameChar
  | .integer _ => Char.isDigit
  | _ => fun _ => false

/-- Whether a token ends in front of the characters. -/
def Token.EndsAt (t : Token) (rest : List Char) : Prop :=
  ∀ c ∈ rest.head?, t.goesOn c = false

/-! ## A spelled token is read -/

/-- A run of characters of a class is taken whole where the class ends behind it. -/
theorem span_run {p : Char → Bool} {cs rest : List Char} (hcs : ∀ c ∈ cs, p c = true)
    (hrest : ∀ c ∈ rest.head?, p c = false) :
    (cs ++ rest).takeWhile p = cs ∧ (cs ++ rest).dropWhile p = rest := by
  rw [List.takeWhile_append_of_pos hcs, List.dropWhile_append_of_pos hcs]
  cases rest with
  | nil => exact ⟨List.append_nil cs, rfl⟩
  | cons c rest =>
      have hc : ¬p c = true := by
        rw [hrest c rfl]
        exact Bool.false_ne_true
      rw [List.takeWhile_cons_of_neg hc, List.dropWhile_cons_of_neg hc]
      exact ⟨List.append_nil cs, rfl⟩

theorem LiteralBody.ofChars_of_spells {quote : Char} {s cs : List Char} (hquote : quote ≠ '\\')
    (h : Spells quote s cs) (rest : List Char) :
    ofChars quote (cs ++ quote :: rest) = ⟨.ok s, cs ++ [quote], rest⟩ := by
  induction h with
  | nil =>
      rw [List.nil_append, ofChars.eq_def]
      simp only [if_true, List.nil_append]
  | raw hne hslash _ ih =>
      rw [List.cons_append, ofChars.eq_def]
      simp only [hne, hslash, if_false, ih]
      rfl
  | escaped he _ ih =>
      rw [List.cons_append, List.cons_append, ofChars.eq_def]
      simp only [hquote.symm, if_false, if_true, he, ih]
      rfl

theorem Numeral.intValue_of_spells {n : Nat} {cs : List Char} (h : Spells n cs) :
    intValue cs = n := by
  obtain ⟨hne, hdigits, rfl⟩ := h
  cases cs with
  | nil => exact absurd rfl hne
  | cons c cs =>
      have hc : c ≠ '-' := by
        rintro rfl
        exact absurd (hdigits '-' List.mem_cons_self) (by decide)
      unfold intValue
      split
      · rename_i heq
        exact absurd (List.cons.inj heq).1 hc
      · rfl

namespace Lexeme

/-- An integer in range is read up to its last digit. -/
theorem ofInteger_of_spells {n : Int64} {m : Nat} {sign cs rest : List Char}
    (hvalue : Numeral.intValue (sign ++ cs) = n.toInt) (h : Numeral.Spells m cs)
    (hrest : ∀ c ∈ rest.head?, c.isDigit = false) :
    ofInteger sign (cs ++ rest) = ⟨.ok (.integer n), sign ++ cs, rest⟩ := by
  obtain ⟨htake, hdrop⟩ := span_run h.2.1 hrest
  unfold ofInteger
  simp only [htake, hdrop, hvalue]
  rw [dif_pos ⟨n.minValue_le_toInt, n.toInt_le⟩, Int64.ofIntLE_toInt]

theorem ofChars_of_isNameStart {c : Char} (h : Text.isNameStart c = true) (rest : List Char) :
    ofChars (c :: rest) = ofIdentifier (c :: rest) := by
  have hne : ∀ d, Text.isNameStart d = false → c ≠ d := fun d => Text.ne_of_isNameStart h
  have hdigit := Text.isDigit_of_isNameStart h
  simp [ofChars, hne '$' (by decide), hne '.' (by decide), hne '[' (by decide),
    hne ']' (by decide), hne '"' (by decide), hne '\'' (by decide), hne '-' (by decide), hdigit, h]

theorem ofChars_of_isDigit {c : Char} (h : c.isDigit = true) (rest : List Char) :
    ofChars (c :: rest) = ofInteger [] (c :: rest) := by
  have hne : ∀ d : Char, d.isDigit = false → c ≠ d := by
    rintro d hd rfl
    rw [h] at hd
    cases hd
  simp [ofChars, hne '$' (by decide), hne '.' (by decide), hne '[' (by decide),
    hne ']' (by decide), hne '"' (by decide), hne '\'' (by decide), hne '-' (by decide), h]

/-- **The lexer reads every spelling.** A spelled token is read to its end, whatever is
behind it that it cannot go on with. -/
theorem ofChars_of_spells {t : Token} {cs rest : List Char} (h : t.Spells cs)
    (hrest : t.EndsAt rest) : ofChars (cs ++ rest) = ⟨.ok t, cs, rest⟩ := by
  -- the first character tells which of the readers is at work; what it takes is a run of
  -- characters of one class that ends where `hrest` says, or is counted out by the spelling
  cases h with
  | @identifier name hname =>
      obtain ⟨htake, hdrop⟩ := span_run hname.isNameChar hrest
      obtain ⟨first, tail, heq, hfirst, -⟩ := hname
      have hread : ofChars (name.toList ++ rest) = ofIdentifier (name.toList ++ rest) := by
        rw [heq]
        exact ofChars_of_isNameStart hfirst _
      rw [hread, ofIdentifier, htake, hdrop, String.ofList_toList]
  | @variableName name hname =>
      obtain ⟨htake, hdrop⟩ := span_run hname.isNameChar hrest
      obtain ⟨first, tail, heq, hfirst, -⟩ := hname
      have hstarts : startsWith Text.isNameStart (name.toList ++ rest) = true := by
        rw [heq]
        exact hfirst
      rw [List.cons_append, ofChars, if_pos rfl, if_pos hstarts, ofVariable, htake, hdrop,
        String.ofList_toList]
  | @natural n m _ hn hdigits =>
      obtain ⟨c, tail, rfl⟩ := List.exists_cons_of_ne_nil hdigits.1
      have hread := ofChars_of_isDigit (hdigits.2.1 c List.mem_cons_self) (tail ++ rest)
      rw [List.cons_append, hread, ← List.cons_append]
      exact ofInteger_of_spells ((Numeral.intValue_of_spells hdigits).trans hn.symm) hdigits hrest
  | @negative n m digits hn hdigits =>
      obtain ⟨c, tail, rfl⟩ := List.exists_cons_of_ne_nil hdigits.1
      have hc : c.isDigit = true := hdigits.2.1 c List.mem_cons_self
      have hread : ofChars ('-' :: (c :: tail ++ rest)) = ofInteger ['-'] (c :: tail ++ rest) := by
        simp [ofChars, startsWith, hc]
      have hvalue : Numeral.intValue (['-'] ++ (c :: tail)) = n.toInt := by
        rw [hn, ← hdigits.2.2]
        rfl
      rw [List.cons_append, hread]
      exact ofInteger_of_spells hvalue hdigits hrest
  | @string quote s body hquote hbody =>
      have hslash : quote ≠ '\\' := by
        rintro rfl
        exact absurd hquote (by decide)
      have hread : ofChars (quote :: (body ++ quote :: rest)) =
          ofString quote (body ++ quote :: rest) := by
        rcases hquote with rfl | rfl <;> simp [ofChars]
      rw [List.append_assoc, List.cons_append, List.singleton_append, hread, ofString,
        LiteralBody.ofChars_of_spells hslash hbody]
      simp [Except.map]
  | dot => rfl
  | openBracket => rfl
  | closeBracket => rfl

end Lexeme

/-! ## A token that is read was spelled -/

theorem map_eq_ok {ε α β : Type} {x : Except ε α} {f : α → β} {b : β}
    (h : x.map f = .ok b) : ∃ a, x = .ok a ∧ f a = b := by
  cases x with
  | error e => cases h
  | ok a => exact ⟨a, rfl, Except.ok.inj h⟩

theorem map_eq_error {ε α β : Type} {x : Except ε α} {f : α → β} {e : ε}
    (h : x.map f = .error e) : x = .error e := by
  cases x with
  | error e' => exact congrArg Except.error (Except.error.inj h)
  | ok a => cases h

theorem LiteralBody.exists_spells {quote : Char} {cs s : List Char}
    (h : (ofChars quote cs).result = .ok s) :
    ∃ body, (ofChars quote cs).read = body ++ [quote] ∧ Spells quote s body := by
  fun_induction ofChars quote cs generalizing s with
  | case1 => cases h
  | case2 rest =>
      cases h
      exact ⟨[], rfl, .nil⟩
  | case3 => cases h
  | case4 e rest c he _ ih =>
      obtain ⟨s, hs, rfl⟩ := map_eq_ok h
      obtain ⟨body, hread, hbody⟩ := ih hs
      exact ⟨'\\' :: e :: body, by rw [LiteralBody.cons, hread]; rfl, .escaped he hbody⟩
  | case5 => cases h
  | case6 c rest hne hslash ih =>
      obtain ⟨s, hs, rfl⟩ := map_eq_ok h
      obtain ⟨body, hread, hbody⟩ := ih hs
      exact ⟨c :: body, by rw [LiteralBody.cons, hread]; rfl, .raw hne hslash hbody⟩

theorem Numeral.spells_takeWhile {c : Char} (hc : c.isDigit = true) (rest : List Char) :
    Spells (value ((c :: rest).takeWhile Char.isDigit)) ((c :: rest).takeWhile Char.isDigit) := by
  refine ⟨?_, fun d hd => List.mem_takeWhile_imp hd, rfl⟩
  rw [List.takeWhile_cons_of_pos hc]
  exact List.cons_ne_nil _ _

namespace Lexeme

theorem exists_of_startsWith {p : Char → Bool} {cs : List Char} (h : startsWith p cs = true) :
    ∃ c rest, cs = c :: rest ∧ p c = true := by
  cases cs with
  | nil => cases h
  | cons c rest => exact ⟨c, rest, rfl, h⟩

/-- The longest run of name characters is a name where it starts like one. -/
theorem exists_name {cs : List Char} (h : startsWith Text.isNameStart cs = true) :
    ∃ name : String, cs.takeWhile Text.isNameChar = name.toList ∧ Text.IsName name.toList := by
  refine ⟨String.ofList (cs.takeWhile Text.isNameChar), String.toList_ofList.symm, ?_⟩
  rw [String.toList_ofList]
  obtain ⟨c, rest, rfl, hc⟩ := exists_of_startsWith h
  rw [List.takeWhile_cons_of_pos (Text.isNameChar_of_isNameStart hc)]
  exact ⟨c, _, rfl, hc, fun d hd => List.mem_takeWhile_imp hd⟩

theorem spells_ofIdentifier {cs : List Char} {t : Token}
    (hstart : startsWith Text.isNameStart cs = true) (h : (ofIdentifier cs).result = .ok t) :
    t.Spells (ofIdentifier cs).read := by
  obtain ⟨name, hread, hname⟩ := exists_name hstart
  simp only [ofIdentifier, hread, String.ofList_toList, Except.ok.injEq] at h ⊢
  subst h
  exact .identifier hname

theorem spells_ofVariable {cs : List Char} {t : Token}
    (hstart : startsWith Text.isNameStart cs = true) (h : (ofVariable cs).result = .ok t) :
    t.Spells (ofVariable cs).read := by
  obtain ⟨name, hread, hname⟩ := exists_name hstart
  simp only [ofVariable, hread, String.ofList_toList, Except.ok.injEq] at h ⊢
  subst h
  exact .variableName hname

/-- An integer that is read is in range, so it has the value of its numeral. -/
theorem ofInteger_eq_ok {sign cs : List Char} {t : Token} (h : (ofInteger sign cs).result = .ok t) :
    ∃ n : Int64, t = .integer n ∧
      n.toInt = Numeral.intValue (sign ++ cs.takeWhile Char.isDigit) := by
  simp only [ofInteger] at h
  split at h
  · rename_i hrange
    exact ⟨_, (Except.ok.inj h).symm, Int64.toInt_ofIntLE⟩
  · cases h

theorem spells_ofString {quote : Char} {cs : List Char} {t : Token}
    (hquote : quote = '"' ∨ quote = '\'') (h : (ofString quote cs).result = .ok t) :
    t.Spells (ofString quote cs).read := by
  obtain ⟨s, hs, rfl⟩ := map_eq_ok h
  obtain ⟨body, hread, hbody⟩ := LiteralBody.exists_spells hs
  rw [← String.toList_ofList (l := s)] at hbody
  have hspells := Token.Spells.string hquote hbody
  rwa [List.cons_append, ← hread] at hspells

theorem spells_natural {c : Char} {cs : List Char} {t : Token} (hc : c.isDigit = true)
    (h : (ofInteger [] (c :: cs)).result = .ok t) : t.Spells (ofInteger [] (c :: cs)).read := by
  have hdigits := Numeral.spells_takeWhile hc cs
  obtain ⟨n, rfl, hn⟩ := ofInteger_eq_ok h
  rw [List.nil_append, Numeral.intValue_of_spells hdigits] at hn
  exact .natural hn hdigits

theorem spells_negative {cs : List Char} {t : Token} (hstart : startsWith Char.isDigit cs = true)
    (h : (ofInteger ['-'] cs).result = .ok t) : t.Spells (ofInteger ['-'] cs).read := by
  obtain ⟨c, cs, rfl, hc⟩ := exists_of_startsWith hstart
  obtain ⟨n, rfl, hn⟩ := ofInteger_eq_ok h
  exact .negative hn (Numeral.spells_takeWhile hc cs)

/-- **The lexer reads nothing else.** A token that is read stands there as it is spelled. -/
theorem spells_read {cs : List Char} {t : Token} (h : (ofChars cs).result = .ok t)
    (ht : t ≠ .endOfInput) : t.Spells (ofChars cs).read := by
  cases cs with
  | nil => exact absurd (Except.ok.inj h).symm ht
  | cons c rest =>
      revert h
      rw [ofChars]
      -- the order of the cases is that of the tests on the first character
      split
      · split
        · exact spells_ofVariable ‹_›
        · intro h
          cases h
      split
      · subst c
        rintro ⟨⟩
        exact .dot
      split
      · subst c
        rintro ⟨⟩
        exact .openBracket
      split
      · subst c
        rintro ⟨⟩
        exact .closeBracket
      split
      · rename_i hquote
        simp only [Bool.or_eq_true, decide_eq_true_eq] at hquote
        exact spells_ofString hquote
      split
      · rename_i hsign
        simp only [Bool.and_eq_true, decide_eq_true_eq] at hsign
        obtain ⟨rfl, hstart⟩ := hsign
        exact spells_negative hstart
      split
      · exact spells_natural ‹_›
      split
      · exact spells_ofIdentifier ‹_›
      · intro h
        cases h

end Lexeme

/-! ## Where a token ends -/

namespace Lexeme

theorem not_of_head?_dropWhile (p : Char → Bool) (cs : List Char) :
    ∀ c ∈ (cs.dropWhile p).head?, p c = false := by
  intro c hc
  have hstop := List.head?_dropWhile_not p cs
  rw [Option.mem_def.mp hc] at hstop
  exact hstop

/-- Where characters are left, a token is read that is not the end, and as many of them as it can
take. -/
theorem stops_of_ofChars {c : Char} {cs : List Char} {t : Token}
    (h : (ofChars (c :: cs)).result = .ok t) :
    t ≠ .endOfInput ∧ t.EndsAt (ofChars (c :: cs)).rest := by
  revert h
  rw [ofChars]
  -- the order of the cases is that of the tests on the first character
  split
  · split
    · rintro ⟨⟩
      exact ⟨by rintro ⟨⟩, not_of_head?_dropWhile Text.isNameChar cs⟩
    · intro h
      cases h
  split
  · rintro ⟨⟩
    exact ⟨by rintro ⟨⟩, fun _ _ => rfl⟩
  split
  · rintro ⟨⟩
    exact ⟨by rintro ⟨⟩, fun _ _ => rfl⟩
  split
  · rintro ⟨⟩
    exact ⟨by rintro ⟨⟩, fun _ _ => rfl⟩
  split
  · intro h
    obtain ⟨s, -, rfl⟩ := map_eq_ok h
    exact ⟨by rintro ⟨⟩, fun _ _ => rfl⟩
  split
  · intro h
    obtain ⟨n, rfl, -⟩ := ofInteger_eq_ok h
    exact ⟨by rintro ⟨⟩, not_of_head?_dropWhile Char.isDigit cs⟩
  split
  · intro h
    obtain ⟨n, rfl, -⟩ := ofInteger_eq_ok h
    exact ⟨by rintro ⟨⟩, not_of_head?_dropWhile Char.isDigit (c :: cs)⟩
  split
  · rintro ⟨⟩
    exact ⟨by rintro ⟨⟩, not_of_head?_dropWhile Text.isNameChar (c :: cs)⟩
  · intro h
    cases h

/-- A token takes as many characters as it can. -/
theorem endsAt_rest {cs : List Char} {t : Token} (h : (ofChars cs).result = .ok t) :
    t.EndsAt (ofChars cs).rest := by
  cases cs with
  | nil => exact nofun
  | cons c cs => exact (stops_of_ofChars h).2

/-- The end is read only where nothing is left. -/
theorem eq_nil_of_endOfInput {cs : List Char} (h : (ofChars cs).result = .ok .endOfInput) :
    cs = [] := by
  cases cs with
  | nil => rfl
  | cons c cs => exact ((stops_of_ofChars h).1 rfl).elim

end Lexeme

theorem Token.EndsAt.append {t : Token} {cs rest : List Char} (h : t.EndsAt cs)
    (hrest : t.EndsAt rest) : t.EndsAt (cs ++ rest) := by
  cases cs with
  | nil => exact hrest
  | cons c cs => exact h

/-! ## Characters and their tokens -/

namespace Token.Spells

theorem ne_endOfInput {t : Token} {cs : List Char} (h : t.Spells cs) : t ≠ .endOfInput := by
  rintro rfl
  cases h

/-- No token starts with a blank. -/
theorem exists_cons {t : Token} {cs : List Char} (h : t.Spells cs) :
    ∃ c rest, cs = c :: rest ∧ Text.isBlank c = false := by
  cases h with
  | identifier h =>
      obtain ⟨first, rest, heq, hfirst, -⟩ := h
      exact ⟨first, rest, heq,
        Text.isBlank_of_isNameChar (Text.isNameChar_of_isNameStart hfirst)⟩
  | variableName h => exact ⟨'$', _, rfl, by decide⟩
  | natural hn h =>
      obtain ⟨c, rest, rfl⟩ := List.exists_cons_of_ne_nil h.1
      have hc : c.isDigit = true := h.2.1 c List.mem_cons_self
      exact ⟨c, rest, rfl, Text.isBlank_of_isNameChar (Text.isNameChar_of_isDigit hc)⟩
  | negative hn h => exact ⟨'-', _, rfl, by decide⟩
  | string hquote h => exact ⟨_, _, rfl, by rcases hquote with rfl | rfl <;> decide⟩
  | dot => exact ⟨'.', [], rfl, by decide⟩
  | openBracket => exact ⟨'[', [], rfl, by decide⟩
  | closeBracket => exact ⟨']', [], rfl, by decide⟩

end Token.Spells

namespace Lexer

theorem rest_skipBlanks {l : Lexer} {blanks cs : List Char} (hrest : l.rest = blanks ++ cs)
    (hblanks : ∀ c ∈ blanks, Text.isBlank c = true)
    (hcs : ∀ c ∈ cs.head?, Text.isBlank c = false) : l.skipBlanks.rest = cs := by
  show l.rest.dropWhile Text.isBlank = cs
  rw [hrest]
  exact (span_run hblanks hcs).2

theorem next_of_spells {l : Lexer} {t : Token} {blanks cs rest : List Char}
    (hrest : l.rest = blanks ++ (cs ++ rest)) (hblanks : ∀ c ∈ blanks, Text.isBlank c = true)
    (h : t.Spells cs) (hends : t.EndsAt rest) : l.next.1 = .ok t ∧ l.next.2.rest = rest := by
  have hhead : ∀ c ∈ (cs ++ rest).head?, Text.isBlank c = false := by
    obtain ⟨first, tail, rfl, hfirst⟩ := h.exists_cons
    rintro c ⟨⟩
    exact hfirst
  have hskip := rest_skipBlanks hrest hblanks hhead
  unfold next
  simp only [hskip, Lexeme.ofChars_of_spells h hends]
  exact ⟨rfl, rfl⟩

theorem next_of_tokens_nil {l : Lexer} (h : l.tokens = .ok []) : l.next.1 = .ok .endOfInput := by
  cases hnext : l.next.1 with
  | error e =>
      rw [tokens_of_error hnext] at h
      cases h
  | ok t =>
      by_cases ht : t = .endOfInput
      · rw [ht]
      · rw [tokens_of_token hnext ht] at h
        obtain ⟨us, -, hus⟩ := map_eq_ok h
        cases hus

theorem next_of_tokens_cons {l : Lexer} {t : Token} {ts : List Token} (h : l.tokens = .ok (t :: ts)) :
    l.next.1 = .ok t ∧ t ≠ .endOfInput ∧ l.next.2.tokens = .ok ts := by
  cases hnext : l.next.1 with
  | error e =>
      rw [tokens_of_error hnext] at h
      cases h
  | ok u =>
      by_cases hu : u = .endOfInput
      · rw [hu] at hnext
        rw [tokens_of_end hnext] at h
        cases h
      · rw [tokens_of_token hnext hu] at h
        obtain ⟨us, hus, heq⟩ := map_eq_ok h
        cases heq
        exact ⟨rfl, hu, hus⟩

/-- Every token of a text is spelled somewhere. -/
theorem exists_spells_of_mem_tokens {l : Lexer} {ts : List Token} (h : l.tokens = .ok ts) :
    ∀ t ∈ ts, ∃ cs, t.Spells cs := by
  induction ts generalizing l with
  | nil => exact List.forall_mem_nil _
  | cons t ts ih =>
      obtain ⟨hnext, ht, hrest⟩ := next_of_tokens_cons h
      exact List.forall_mem_cons.mpr
        ⟨⟨_, Lexeme.spells_read (result_of_next hnext) ht⟩, ih hrest⟩

end Lexer

/-- Every lexer that has just these characters left reads these tokens. -/
def Reads (cs : List Char) (ts : List Token) : Prop :=
  ∀ l : Lexer, l.rest = cs → l.tokens = .ok ts

namespace Reads

theorem blanks {cs : List Char} (h : ∀ c ∈ cs, Text.isBlank c = true) : Reads cs [] := by
  intro l hrest
  have hskip : l.skipBlanks.rest = [] :=
    Lexer.rest_skipBlanks (by rw [hrest, List.append_nil]) h nofun
  have hnext : l.next.1 = .ok .endOfInput := by
    simp only [Lexer.next, hskip]
    rfl
  exact Lexer.tokens_of_end hnext

/-- A spelled token in front, with blanks before it. -/
theorem cons_of_blanks {t : Token} {blanks cs rest : List Char} {ts : List Token}
    (hblanks : ∀ c ∈ blanks, Text.isBlank c = true) (h : t.Spells cs) (hends : t.EndsAt rest)
    (hrest : Reads rest ts) : Reads (blanks ++ (cs ++ rest)) (t :: ts) := by
  intro l hl
  obtain ⟨hnext, hleft⟩ := Lexer.next_of_spells hl hblanks h hends
  rw [Lexer.tokens_of_token hnext h.ne_endOfInput, hrest _ hleft]
  rfl

theorem cons {t : Token} {cs rest : List Char} {ts : List Token} (h : t.Spells cs)
    (hends : t.EndsAt rest) (hrest : Reads rest ts) : Reads (cs ++ rest) (t :: ts) :=
  cons_of_blanks (List.forall_mem_nil _) h hends hrest

end Reads

end DocPath
