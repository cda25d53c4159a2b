import DocPath.Path.Text
import DocPath.Proofs.Path.Shape
import DocPath.Proofs.Syntax.Writing

/-!
# Written paths

What the text of a path is read as. A written path is a list of tokens (`Path.tokens`), its
text is read as these tokens (`Path.prints_tokens`), and they derive the path with its lone
variables collapsed (`Path.derives_path`). So a text that was parsed and written again gives
the same path back unless a nested path in it is a lone variable (`Path.reparse_text`).
-/

namespace DocPath

/-! ## The tokens of a path -/

def Key.token : Key → Token
  | .int n => .integer n
  | .str s => .string s

mutual

/-- A step at the start of a path. -/
def Segment.headTokens : Segment → List Token
  | .name name => [.identifier name]
  | .variable name => [.variable name]
  | .index key => .openBracket :: ([key.token] ++ [.closeBracket])
  | .nested path => .openBracket :: (Path.tokens path ++ [.closeBracket])

/-- A step behind another one. -/
def Segment.tailTokens : Segment → List Token
  | .name name => [.dot, .identifier name]
  | .variable name => .openBracket :: ([.variable name] ++ [.closeBracket])
  | .index key => .openBracket :: ([key.token] ++ [.closeBracket])
  | .nested path => .openBracket :: (Path.tokens path ++ [.closeBracket])

def Path.tokens : Path → List Token
  | [] => []
  | segment :: rest => segment.headTokens ++ Path.tailTokens rest

def Path.tailTokens : Path → List Token
  | [] => []
  | segment :: rest => segment.tailTokens ++ Path.tailTokens rest

end

/-! ## The text of a path is read as its tokens -/

theorem LiteralBody.spells_escape (s : List Char) : Spells '"' s (s.flatMap Key.escape) := by
  induction s with
  | nil => exact .nil
  | cons c s ih =>
      rw [List.flatMap_cons]
      unfold Key.escape
      split
      · exact .escaped rfl ih
      · exact .escaped rfl ih
      · exact .escaped rfl ih
      · exact .escaped rfl ih
      · exact .escaped rfl ih
      · rename_i hquote hslash
        exact .raw hquote hslash ih

theorem Numeral.spells_digits (n : Nat) : Spells n (digits n) :=
  ⟨Nat.toDigits_ne_nil, fun _ => isDigit_of_mem_digits, value_digits n⟩

theorem Key.spells_chars (key : Key) : key.token.Spells key.chars := by
  cases key with
  | int n =>
      show Token.Spells (.integer n) (Numeral.ofInt n.toInt)
      unfold Numeral.ofInt
      split
      · exact .negative (by omega) (Numeral.spells_digits _)
      · exact .natural (by omega) (Numeral.spells_digits _)
  | str s => exact .string (Or.inl rfl) (LiteralBody.spells_escape s.toList)

/-- Behind a step the next one starts with a dot or a bracket. -/
theorem Path.apart_tailChars (p : Path) : Apart (Path.tailChars p) := by
  cases p with
  | nil => exact Apart.nil
  | cons segment rest =>
      have hdot : Text.isNameChar '.' = false := by decide
      have hbracket : Text.isNameChar '[' = false := by decide
      cases segment with
      | name name => exact Apart.cons hdot
      | «variable» name | index key | nested path => exact Apart.cons hbracket

mutual

theorem Segment.prints_headTokens (s : Segment) (h : s.WellFormed) :
    Prints s.headChars s.headTokens := by
  match s, h with
  | .name _, .name hname => exact .token (.identifier hname)
  | .variable _, .variableName hname => exact .token (.variableName hname)
  | .index key, _ => exact .brackets (.token key.spells_chars)
  | .nested path, .nested _ hsteps => exact .brackets (Path.prints_tokens path hsteps)

theorem Segment.prints_tailTokens (s : Segment) (h : s.WellFormed) :
    Prints s.tailChars s.tailTokens := by
  match s, h with
  | .name _, .name hname => exact .dot (.token (.identifier hname))
  | .variable _, .variableName hname => exact .brackets (.token (.variableName hname))
  | .index key, _ => exact .brackets (.token key.spells_chars)
  | .nested path, .nested _ hsteps => exact .brackets (Path.prints_tokens path hsteps)

/-- **The text of a path is read as its tokens**, in any surroundings. -/
theorem Path.prints_tokens (p : Path) (h : ∀ s ∈ p, s.WellFormed) :
    Prints (Path.chars p) p.tokens := by
  match p, h with
  | [], _ => exact .nil
  | segment :: rest, h =>
      obtain ⟨hsegment, hrest⟩ := List.forall_mem_cons.mp h
      exact .append (Segment.prints_headTokens segment hsegment)
        (Path.prints_tailTokens rest hrest) (Path.apart_tailChars rest)

theorem Path.prints_tailTokens (p : Path) (h : ∀ s ∈ p, s.WellFormed) :
    Prints (Path.tailChars p) p.tailTokens := by
  match p, h with
  | [], _ => exact .nil
  | segment :: rest, h =>
      obtain ⟨hsegment, hrest⟩ := List.forall_mem_cons.mp h
      exact .append (Segment.prints_tailTokens segment hsegment)
        (Path.prints_tailTokens rest hrest) (Path.apart_tailChars rest)

end

/-! ## The tokens of a path derive it, collapsed -/

theorem Key.derives_token (key : Key) : Derives .brackets [key.token] [.index key] := by
  cases key with
  | int n => exact .integer n
  | str s => exact .string s

mutual

theorem Segment.derives_headTokens (s : Segment) (h : s.WellFormed) :
    Derives .head s.headTokens [s.collapse] := by
  match s, h with
  | .name name, _ => exact .nameHead name
  | .variable name, _ => exact .variableHead name
  | .index key, _ => exact .bracketsHead key.derives_token
  | .nested path, .nested hne hsteps => exact .bracketsHead (Path.derives_nested path hne hsteps)

theorem Segment.derives_tailTokens (s : Segment) (h : s.WellFormed) :
    Derives .step s.tailTokens [s.collapse] := by
  match s, h with
  | .name name, _ => exact .dotName name
  | .variable name, _ => exact .bracketsStep (.loneVariable name)
  | .index key, _ => exact .bracketsStep key.derives_token
  | .nested path, .nested hne hsteps => exact .bracketsStep (Path.derives_nested path hne hsteps)

/-- In brackets, a path is the variable that it consists of, or else a nested path. -/
theorem Path.derives_nested (p : Path) (hne : p ≠ []) (h : ∀ s ∈ p, s.WellFormed) :
    Derives .brackets p.tokens [(Segment.nested p).collapse] := by
  match p, h with
  | [], _ => exact absurd rfl hne
  -- this is where a nested path is lost: its brackets are those of the variable
  | [.variable name], _ => exact .loneVariable name
  | .variable name :: second :: rest, h =>
      obtain ⟨hsecond, hrest⟩ := List.forall_mem_cons.mp (List.forall_mem_cons.mp h).2
      exact .variablePath name (Segment.derives_tailTokens second hsecond)
        (Path.derives_tailTokens rest hrest)
  | .name name :: rest, h =>
      have htail := Path.derives_tailTokens rest (List.forall_mem_cons.mp h).2
      exact .nestedPath (.path (.nameHead name) htail) trivial
  | .index key :: rest, h =>
      have htail := Path.derives_tailTokens rest (List.forall_mem_cons.mp h).2
      exact .nestedPath (.path (.bracketsHead key.derives_token) htail) trivial
  | .nested path :: rest, h =>
      obtain ⟨hpath, hrest⟩ := List.forall_mem_cons.mp h
      have htail := Path.derives_tailTokens rest hrest
      have hhead := Segment.derives_headTokens (.nested path) hpath
      exact .nestedPath (.path hhead htail) trivial

theorem Path.derives_tailTokens (p : Path) (h : ∀ s ∈ p, s.WellFormed) :
    Derives .steps p.tailTokens p.collapse := by
  match p, h with
  | [], _ => exact .noStep
  | segment :: rest, h =>
      obtain ⟨hsegment, hrest⟩ := List.forall_mem_cons.mp h
      exact .moreSteps (Segment.derives_tailTokens segment hsegment)
        (Path.derives_tailTokens rest hrest)

end

theorem Path.derives_path {p : Path} (h : p.WellFormed) : Derives .path p.tokens p.collapse := by
  obtain ⟨hne, hsteps⟩ := h
  cases p with
  | nil => exact absurd rfl hne
  | cons segment rest =>
      obtain ⟨hsegment, hrest⟩ := List.forall_mem_cons.mp hsteps
      exact .path (segment.derives_headTokens hsegment) (Path.derives_tailTokens rest hrest)

/-- **Written and parsed.** A path whose names are names is read back from its text, with
its lone variables collapsed. -/
theorem Path.parse_text {p : Path} (h : p.WellFormed) : Path.parse p.text = .ok p.collapse := by
  refine parse_eq_ok_iff.mpr ⟨p.tokens, ?_, derives_path h⟩
  exact (prints_tokens p h.2).reads (Lexer.ofText p.text) String.toList_ofList

/-- **Printing confuses one shape only.** A path whose names are names is read back from its text
with each nested path in it that is a lone variable collapsed, once and at every depth. So it is
read back as it is if and only if there is none, and paths of one text collapse to one path. -/
theorem Path.text_confuses_lone_variables {p : Path} (h : p.WellFormed) :
    Path.parse p.text = .ok p.collapse ∧
      (Path.parse p.text = .ok p ↔ ∀ q ∈ p.subpaths, ¬q.IsLoneVariable) ∧
      ∀ q : Path, q.WellFormed → q.text = p.text → q.collapse = p.collapse := by
  have hparse := parse_text h
  refine ⟨hparse, ?_, ?_⟩
  · rw [hparse, Except.ok.injEq]
    exact p.collapse_eq_self_iff
  · intro q hq htext
    have hread := parse_text hq
    rw [htext, hparse] at hread
    exact (Except.ok.inj hread).symm

/-- The least integer, a key that is all escapes, and lone variables two deep, of which the outer
one stays nested. -/
theorem Path.text_confuses_lone_variables_nested :
    let p : Path := [.nested [.variable "_x"], .index (.int Int64.minValue),
      .index (.str "\"\\\n'"), .nested [.nested [.variable "é1"]]]
    p.WellFormed ∧ p.text = "[$_x][-9223372036854775808][\"\\\"\\\\\\n'\"][[$é1]]" ∧
      Path.parse p.text = .ok [.variable "_x", .index (.int Int64.minValue),
        .index (.str "\"\\\n'"), .nested [.variable "é1"]] := by
  intro p
  have hlatin : (Segment.variable "_x").WellFormed :=
    .variableName ⟨'_', ['x'], rfl, by decide +kernel,
      List.forall_mem_singleton.mpr (by decide +kernel)⟩
  have haccent : (Segment.variable "é1").WellFormed :=
    .variableName ⟨'é', ['1'], rfl, by decide +kernel,
      List.forall_mem_singleton.mpr (by decide +kernel)⟩
  have hone {s : Segment} (hs : s.WellFormed) : (Segment.nested [s]).WellFormed :=
    .nested (List.cons_ne_nil _ _) (List.forall_mem_singleton.mpr hs)
  have hp : p.WellFormed := by
    refine ⟨List.cons_ne_nil _ _, ?_⟩
    simp only [p, List.forall_mem_cons]
    exact ⟨hone hlatin, .index _, .index _, hone (hone haccent), List.forall_mem_nil _⟩
  exact ⟨hp, by decide +kernel, (text_confuses_lone_variables hp).1⟩

/-! ## Parsed paths -/

/-- Only further steps may be none. -/
theorem Derives.ne_nil {phrase : Phrase} {ts : List Token} {p : Path} (h : Derives phrase ts p)
    (hphrase : phrase ≠ .steps) : p ≠ [] := by
  induction h with
  | path _ _ ihHead _ => exact List.append_ne_nil_of_left_ne_nil (ihHead nofun) _
  | noStep | moreSteps => exact absurd rfl hphrase
  | bracketsHead _ ih | bracketsStep _ ih => exact ih nofun
  | _ => exact List.cons_ne_nil _ _

theorem Segment.WellFormed.name_of_spells {name : String}
    (h : ∃ cs, (Token.identifier name).Spells cs) : (Segment.name name).WellFormed := by
  obtain ⟨cs, h⟩ := h
  cases h with
  | identifier hname => exact .name hname

theorem Segment.WellFormed.variable_of_spells {name : String}
    (h : ∃ cs, (Token.variable name).Spells cs) : (Segment.variable name).WellFormed := by
  obtain ⟨cs, h⟩ := h
  cases h with
  | variableName hname => exact .variableName hname

/-- Tokens that can be written derive steps that are well formed. -/
theorem Derives.wellFormed {phrase : Phrase} {ts : List Token} {p : Path}
    (h : Derives phrase ts p) (hts : ∀ t ∈ ts, ∃ cs, t.Spells cs) : ∀ s ∈ p, s.WellFormed := by
  induction h with
  | path _ _ ihFirst ihRest | moreSteps _ _ ihFirst ihRest =>
      obtain ⟨hfirst, hrest⟩ := List.forall_mem_append.mp hts
      exact List.forall_mem_append.mpr ⟨ihFirst hfirst, ihRest hrest⟩
  | nameHead name => exact List.forall_mem_singleton.mpr (.name_of_spells (hts _ (by simp)))
  | variableHead name | loneVariable name =>
      exact List.forall_mem_singleton.mpr (.variable_of_spells (hts _ (by simp)))
  | dotName name => exact List.forall_mem_singleton.mpr (.name_of_spells (hts _ (by simp)))
  | dotVariable name => exact List.forall_mem_singleton.mpr (.variable_of_spells (hts _ (by simp)))
  | bracketsHead _ ih | bracketsStep _ ih => exact ih fun t ht => hts t (by simp [ht])
  | noStep => exact List.forall_mem_nil _
  | dotIndex | integer | string => exact List.forall_mem_singleton.mpr (.index _)
  | variablePath name _ _ ihFirst ihRest =>
      obtain ⟨hfirst, hrest⟩ := List.forall_mem_append.mp (List.forall_mem_cons.mp hts).2
      have hsteps := List.forall_mem_append.mpr ⟨ihFirst hfirst, ihRest hrest⟩
      have hhead := Segment.WellFormed.variable_of_spells (hts _ List.mem_cons_self)
      exact List.forall_mem_singleton.mpr
        (.nested (List.cons_ne_nil _ _) (List.forall_mem_cons.mpr ⟨hhead, hsteps⟩))
  | nestedPath inner _ ih =>
      exact List.forall_mem_singleton.mpr (.nested (inner.ne_nil nofun) (ih hts))

theorem Path.wellFormed_of_parse {text : String} {p : Path} (h : Path.parse text = .ok p) :
    p.WellFormed := by
  obtain ⟨ts, hts, hderives⟩ := parse_eq_ok_iff.mp h
  -- the lexer reads no token that cannot be written
  exact ⟨hderives.ne_nil nofun, hderives.wellFormed (Lexer.exists_spells_of_mem_tokens hts)⟩

/-- **A parsed path, written and parsed again.** The text of a parsed path is always
accepted, with the lone variables in the path collapsed. So it gives the path back if and
only if no nested path in it, at any depth, is a variable and nothing else. -/
theorem Path.reparse_text {text : String} {p : Path} (h : Path.parse text = .ok p) :
    Path.parse p.text = .ok p.collapse ∧
      (Path.parse p.text = .ok p ↔ ∀ q ∈ p.subpaths, ¬q.IsLoneVariable) := by
  have hparse := parse_text (wellFormed_of_parse h)
  refine ⟨hparse, ?_⟩
  rw [hparse, Except.ok.injEq]
  exact Path.collapse_eq_self_iff p

/-- Quotes, an escape, blanks and brackets in brackets are written in another way, and the
path comes back. -/
theorem Path.reparse_text_nested :
    Path.parse "$a['k\\n'].b[ [$c.d] ].7" = .ok
      [.variable "a", .index (.str "k\n"), .name "b", .nested [.nested [.variable "c", .name "d"]],
        .index (.int 7)] ∧
    Path.parse "$a[\"k\\n\"].b[[$c.d]][7]" = .ok
      [.variable "a", .index (.str "k\n"), .name "b", .nested [.nested [.variable "c", .name "d"]],
        .index (.int 7)] := by
  have hparse : Path.parse "$a['k\\n'].b[ [$c.d] ].7" = .ok
      [.variable "a", .index (.str "k\n"), .name "b", .nested [.nested [.variable "c", .name "d"]],
        .index (.int 7)] := by
    decide +kernel
  refine ⟨hparse, (reparse_text hparse).2.mpr ?_⟩
  rintro q hq ⟨name, rfl⟩
  simp [Path.subpaths, Segment.subpaths] at hq

/-- A nested path that is a lone variable is written like the variable, so its path does not
come back. -/
theorem Path.not_forall_reparse_text :
    ¬∀ text p, Path.parse text = .ok p → Path.parse p.text = .ok p := by
  intro h
  have hparse : Path.parse "a[[$x]]" = .ok [.name "a", .nested [.variable "x"]] := by
    decide +kernel
  have hagain : Path.parse (Path.text [.name "a", .nested [.variable "x"]]) =
      .ok [.name "a", .variable "x"] := by
    decide +kernel
  rw [h _ _ hparse] at hagain
  cases hagain

end DocPath
