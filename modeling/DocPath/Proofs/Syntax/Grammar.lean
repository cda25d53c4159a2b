import DocPath.Syntax.PartialPath

/-!
# The grammar of paths

The grammar as rules (`Derives`), and the machine that builds a path token by token
(`PartialPath.feed`), which knows nothing of phrases. They accept the same:

* a machine that reads a phrase does to its state what the phrase stands for, whatever
  surrounds it (`after?_of_derives`, by induction on the derivation);
* what a machine still reads until it is done completes the phrases it has open
  (`Finishes`, one step back at a time).

The machine is a function, so the grammar is unambiguous (`Derives.unique`).
-/

namespace DocPath

/-- The kinds of phrases. A head, a step and the content of brackets each stand for one
step of a path. -/
inductive Phrase where
  | path
  | head
  | steps
  | step
  | brackets

/-- Whether tokens start like a nested path that does not start with a variable. -/
def StartsNested : List Token → Prop
  | .identifier _ :: _ => True
  | .openBracket :: _ => True
  | _ => False

/-- **The grammar.** `Derives phrase ts p`: the tokens are such a phrase, and it stands for
the steps `p`. -/
inductive Derives : Phrase → List Token → Path → Prop where
  | path {ts us p q} (head : Derives .head ts p) (tail : Derives .steps us q) :
      Derives .path (ts ++ us) (p ++ q)
  | nameHead (name : String) : Derives .head [.identifier name] [.name name]
  | variableHead (name : String) : Derives .head [.variable name] [.variable name]
  | bracketsHead {ts p} (inner : Derives .brackets ts p) :
      Derives .head (.openBracket :: (ts ++ [.closeBracket])) p
  | noStep : Derives .steps [] []
  | moreSteps {ts us p q} (first : Derives .step ts p) (rest : Derives .steps us q) :
      Derives .steps (ts ++ us) (p ++ q)
  | dotName (name : String) : Derives .step [.dot, .identifier name] [.name name]
  | dotIndex (n : Int64) (hn : 0 ≤ n) : Derives .step [.dot, .integer n] [.index (.int n)]
  | dotVariable (name : String) : Derives .step [.dot, .variable name] [.variable name]
  | bracketsStep {ts p} (inner : Derives .brackets ts p) :
      Derives .step (.openBracket :: (ts ++ [.closeBracket])) p
  | integer (n : Int64) : Derives .brackets [.integer n] [.index (.int n)]
  | string (s : String) : Derives .brackets [.string s] [.index (.str s)]
  | loneVariable (name : String) : Derives .brackets [.variable name] [.variable name]
  | variablePath (name : String) {ts us p q} (first : Derives .step ts p)
      (rest : Derives .steps us q) :
      Derives .brackets (.variable name :: (ts ++ us)) [.nested (.variable name :: (p ++ q))]
  | nestedPath {ts p} (inner : Derives .path ts p) (hstart : StartsNested ts) :
      Derives .brackets ts [.nested p]

/-! ## The machine on many tokens -/

namespace PartialPath

/-- The state behind a token, if the token fits and the path goes on. -/
def next? (s : PartialPath) (t : Token) : Option PartialPath :=
  match s.feed t with
  | .more s' => some s'
  | .complete _ | .refused _ => none

theorem next?_eq_some {s s' : PartialPath} {t : Token} :
    s.next? t = some s' ↔ s.feed t = .more s' := by
  unfold next?
  cases s.feed t <;> simp

/-- The state behind all of the tokens. -/
def after? (s : PartialPath) (ts : List Token) : Option PartialPath :=
  ts.foldlM next? s

/-- The machine reads the tokens and is then done with a path. -/
def Accepts (s : PartialPath) (ts : List Token) (p : Path) : Prop :=
  ∃ s', s.after? ts = some s' ∧ s'.feed .endOfInput = .complete p

@[simp] theorem after?_nil (s : PartialPath) : s.after? [] = some s := rfl

theorem after?_cons (s : PartialPath) (t : Token) (ts : List Token) :
    s.after? (t :: ts) = (s.next? t).bind (·.after? ts) := List.foldlM_cons

theorem after?_append (s : PartialPath) (ts us : List Token) :
    s.after? (ts ++ us) = (s.after? ts).bind (·.after? us) := List.foldlM_append

theorem accepts_cons {s : PartialPath} {t : Token} {ts : List Token} {p : Path} :
    s.Accepts (t :: ts) p ↔ ∃ s', s.feed t = .more s' ∧ s'.Accepts ts p := by
  simp only [Accepts, after?_cons, Option.bind_eq_some_iff, next?_eq_some]
  constructor
  · rintro ⟨done, ⟨s', hfeed, hafter⟩, hdone⟩
    exact ⟨s', hfeed, done, hafter, hdone⟩
  · rintro ⟨s', hfeed, done, hafter, hdone⟩
    exact ⟨done, ⟨s', hfeed, hafter⟩, hdone⟩

/-- At most one path comes out of a machine. -/
theorem Accepts.unique {s : PartialPath} {ts : List Token} {p q : Path} (hp : s.Accepts ts p)
    (hq : s.Accepts ts q) : p = q := by
  obtain ⟨s₁, hs₁, hp⟩ := hp
  obtain ⟨s₂, hs₂, hq⟩ := hq
  obtain rfl : s₁ = s₂ := Option.some.inj (hs₁.symm.trans hs₂)
  exact Feeding.complete.inj (hp.symm.trans hq)

end PartialPath

/-! ## Completeness: the machine reads every phrase -/

open PartialPath

/-- What reading a phrase does to a machine that is ready for it. A path or a head in
brackets is read from behind the opening bracket, if it starts a nested path there. -/
def Phrase.Moves : Phrase → List Token → Path → Prop
  | .path, ts, p | .head, ts, p => ∀ outer,
      after? ⟨[], outer, .head⟩ ts = some ⟨p, outer, .afterStep⟩ ∧
      (StartsNested ts → ∀ steps,
        after? ⟨steps, outer, .inBrackets⟩ ts = some ⟨p, steps :: outer, .afterStep⟩)
  | .steps, ts, p | .step, ts, p => ∀ steps outer,
      after? ⟨steps, outer, .afterStep⟩ ts = some ⟨steps ++ p, outer, .afterStep⟩
  | .brackets, ts, p => ∀ steps outer,
      after? ⟨steps, outer, .inBrackets⟩ (ts ++ [.closeBracket]) =
        some ⟨steps ++ p, outer, .afterStep⟩

theorem startsNested_of_append {ts us : List Token} (hne : ts ≠ [])
    (h : StartsNested (ts ++ us)) : StartsNested ts := by
  cases ts with
  | nil => exact absurd rfl hne
  | cons t ts => cases t <;> exact h

theorem Derives.head_ne_nil {ts : List Token} {p : Path} (h : Derives .head ts p) : ts ≠ [] := by
  cases h <;> exact List.cons_ne_nil _ _

/-- Behind a variable in brackets, a step opens a nested path that starts with it. -/
theorem after?_afterVariable {ts : List Token} {p : Path} (h : Derives .step ts p)
    (steps : Path) (outer : List Path) (name : String) :
    after? ⟨steps, outer, .afterVariable name⟩ ts =
      after? ⟨[.variable name], steps :: outer, .afterStep⟩ ts := by
  cases h <;> rfl

/-- **Completeness.** The machine reads every phrase, in every surrounding. -/
theorem after?_of_derives {phrase : Phrase} {ts : List Token} {p : Path}
    (h : Derives phrase ts p) : phrase.Moves ts p := by
  induction h with
  | @path ts us p q head tail ihHead ihTail =>
      intro outer
      refine ⟨?_, fun hstart steps => ?_⟩
      · rw [after?_append, (ihHead outer).1]
        exact ihTail p outer
      · have hhead := startsNested_of_append head.head_ne_nil hstart
        rw [after?_append, (ihHead outer).2 hhead steps]
        exact ihTail p (steps :: outer)
  | nameHead name => exact fun outer => ⟨rfl, fun _ steps => rfl⟩
  | variableHead name => exact fun outer => ⟨rfl, fun hstart => hstart.elim⟩
  | bracketsHead inner ih =>
      intro outer
      exact ⟨ih [] outer, fun _ steps => ih [] (steps :: outer)⟩
  | noStep =>
      intro steps outer
      rw [after?_nil, List.append_nil]
  | @moreSteps ts us p q first rest ihFirst ihRest =>
      intro steps outer
      rw [after?_append, ihFirst steps outer, ← List.append_assoc]
      exact ihRest (steps ++ p) outer
  | dotName name => exact fun steps outer => rfl
  | dotIndex n hn =>
      intro steps outer
      have hfeed : feed ⟨steps, outer, .afterDot⟩ (.integer n) =
          .more ⟨steps ++ [.index (.int n)], outer, .afterStep⟩ := if_pos hn
      have hdot : after? ⟨steps, outer, .afterStep⟩ [.dot, .integer n] =
          (next? ⟨steps, outer, .afterDot⟩ (.integer n)).bind (·.after? []) := rfl
      rw [hdot, next?_eq_some.mpr hfeed]
      rfl
  | dotVariable name => exact fun steps outer => rfl
  | bracketsStep inner ih => exact fun steps outer => ih steps outer
  | integer n => exact fun steps outer => rfl
  | string s => exact fun steps outer => rfl
  | loneVariable name => exact fun steps outer => rfl
  | @variablePath name ts us p q first rest ihFirst ihRest =>
      intro steps outer
      show after? ⟨steps, outer, .afterVariable name⟩ (ts ++ us ++ [.closeBracket]) = _
      rw [after?_append, after?_append, after?_afterVariable first,
        ihFirst [.variable name] (steps :: outer), Option.bind_some,
        ihRest ([Segment.variable name] ++ p) (steps :: outer)]
      show some _ = some _
      rw [List.append_assoc]
      rfl
  | @nestedPath ts p inner hstart ih =>
      intro steps outer
      rw [after?_append, (ih outer).2 hstart steps]
      rfl

theorem Derives.accepts {ts : List Token} {p : Path} (h : Derives .path ts p) :
    start.Accepts ts p :=
  ⟨⟨p, [], .afterStep⟩, (after?_of_derives h []).1, rfl⟩

/-! ## Soundness: what a machine reads completes its open phrases -/

/-- The tokens complete the open paths, from the innermost outwards, and end there. -/
def Closes : List Path → Path → List Token → Path → Prop
  | [], steps, ts, p => ∃ q, Derives .steps ts q ∧ p = steps ++ q
  | around :: outer, steps, ts, p => ∃ us q vs, ts = us ++ .closeBracket :: vs ∧
      Derives .steps us q ∧ Closes outer (around ++ [.nested (steps ++ q)]) vs p

/-- The tokens complete what a machine has open: the phrase at its spot, and then the
paths around it. -/
def Finishes (s : PartialPath) (ts : List Token) (p : Path) : Prop :=
  match s.spot with
  | .head => ∃ us q vs, ts = us ++ vs ∧ Derives .head us q ∧ Closes s.outer (s.steps ++ q) vs p
  | .afterStep => Closes s.outer s.steps ts p
  | .afterDot => ∃ t q vs, ts = t :: vs ∧ Derives .step [.dot, t] q ∧
      Closes s.outer (s.steps ++ q) vs p
  | .inBrackets => ∃ us q vs, ts = us ++ .closeBracket :: vs ∧ Derives .brackets us q ∧
      Closes s.outer (s.steps ++ q) vs p
  | .afterKey key => ∃ vs, ts = .closeBracket :: vs ∧
      Closes s.outer (s.steps ++ [.index key]) vs p
  | .afterVariable name => ∃ us q vs, ts = us ++ .closeBracket :: vs ∧
      Derives .brackets (.variable name :: us) q ∧ Closes s.outer (s.steps ++ q) vs p

/-- One more step in front. -/
theorem Closes.step {outer : List Path} {steps p q : Path} {us vs : List Token}
    (hstep : Derives .step us q) (h : Closes outer (steps ++ q) vs p) :
    Closes outer steps (us ++ vs) p := by
  cases outer with
  | nil =>
      obtain ⟨more, hmore, rfl⟩ := h
      exact ⟨q ++ more, .moreSteps hstep hmore, List.append_assoc ..⟩
  | cons around outer =>
      obtain ⟨ws, more, rest, rfl, hmore, hrest⟩ := h
      refine ⟨us ++ ws, q ++ more, rest, (List.append_assoc ..).symm, .moreSteps hstep hmore, ?_⟩
      rwa [← List.append_assoc]

theorem finishes_head {s s' : PartialPath} {t : Token} {ts : List Token} {p : Path}
    (hspot : s.spot = .head) (hfeed : s.feedHead t = .more s') (h : Finishes s' ts p) :
    Finishes s (t :: ts) p := by
  unfold Finishes
  rw [hspot]
  cases t <;> simp only [feedHead, Feeding.more.injEq, reduceCtorEq] at hfeed <;> subst hfeed
  case identifier name => exact ⟨_, _, ts, rfl, .nameHead name, h⟩
  case «variable» name => exact ⟨_, _, ts, rfl, .variableHead name, h⟩
  case openBracket =>
    obtain ⟨us, q, vs, rfl, hinner, hrest⟩ := h
    exact ⟨_, q, vs, by simp, .bracketsHead hinner, hrest⟩

theorem finishes_afterStep {s s' : PartialPath} {t : Token} {ts : List Token} {p : Path}
    (hspot : s.spot = .afterStep) (hfeed : s.feedStep t = .more s') (h : Finishes s' ts p) :
    Finishes s (t :: ts) p := by
  unfold Finishes
  rw [hspot]
  cases t <;> simp only [feedStep, Feeding.more.injEq, reduceCtorEq] at hfeed
  case dot =>
    subst hfeed
    obtain ⟨t, q, vs, rfl, hstep, hrest⟩ := h
    exact Closes.step hstep hrest
  case openBracket =>
    subst hfeed
    obtain ⟨us, q, vs, rfl, hinner, hrest⟩ := h
    have hclosed := Closes.step (.bracketsStep hinner) hrest
    rwa [List.cons_append, List.append_assoc] at hclosed
  case closeBracket =>
    split at hfeed
    · cases hfeed
    · rename_i around outer houter
      cases hfeed
      rw [houter]
      exact ⟨[], [], ts, rfl, .noStep, by rwa [List.append_nil]⟩
  case endOfInput => split at hfeed <;> cases hfeed

theorem finishes_afterDot {s s' : PartialPath} {t : Token} {ts : List Token} {p : Path}
    (hspot : s.spot = .afterDot) (hfeed : s.feedDotted t = .more s') (h : Finishes s' ts p) :
    Finishes s (t :: ts) p := by
  unfold Finishes
  rw [hspot]
  cases t <;> simp only [feedDotted, Feeding.more.injEq, reduceCtorEq] at hfeed
  case identifier name =>
    subst hfeed
    exact ⟨_, _, ts, rfl, .dotName name, h⟩
  case integer n =>
    split at hfeed
    · rename_i hn
      cases hfeed
      exact ⟨_, _, ts, rfl, .dotIndex n hn, h⟩
    · cases hfeed
  case «variable» name =>
    subst hfeed
    exact ⟨_, _, ts, rfl, .dotVariable name, h⟩

theorem finishes_inBrackets {s s' : PartialPath} {t : Token} {ts : List Token} {p : Path}
    (hspot : s.spot = .inBrackets) (hfeed : s.feedBrackets t = .more s')
    (h : Finishes s' ts p) : Finishes s (t :: ts) p := by
  unfold Finishes
  rw [hspot]
  cases t <;> simp only [feedBrackets, Feeding.more.injEq, reduceCtorEq] at hfeed <;> subst hfeed
  case integer n =>
    obtain ⟨vs, rfl, hrest⟩ := h
    exact ⟨_, _, vs, rfl, .integer n, hrest⟩
  case string key =>
    obtain ⟨vs, rfl, hrest⟩ := h
    exact ⟨_, _, vs, rfl, .string key, hrest⟩
  case «variable» name =>
    obtain ⟨us, q, vs, rfl, hinner, hrest⟩ := h
    exact ⟨_, q, vs, rfl, hinner, hrest⟩
  case identifier name =>
    obtain ⟨us, q, vs, rfl, htail, hrest⟩ := h
    exact ⟨_, _, vs, rfl, .nestedPath (.path (.nameHead name) htail) trivial, hrest⟩
  case openBracket =>
    -- the inner brackets are closed first, then the path that they start
    obtain ⟨us, q, vs, rfl, hinner, us', q', vs', rfl, htail, hrest⟩ := h
    exact ⟨_, _, vs', by simp, .nestedPath (.path (.bracketsHead hinner) htail) trivial, hrest⟩

theorem finishes_afterVariable {s s' : PartialPath} {t : Token} {ts : List Token} {p : Path}
    {name : String} (hspot : s.spot = .afterVariable name)
    (hfeed : s.feedVariable name t = .more s') (h : Finishes s' ts p) :
    Finishes s (t :: ts) p := by
  unfold Finishes
  rw [hspot]
  cases t <;> simp only [feedVariable, Feeding.more.injEq, reduceCtorEq] at hfeed <;> subst hfeed
  case closeBracket => exact ⟨[], _, ts, rfl, .loneVariable name, h⟩
  case dot =>
    obtain ⟨t, q, vs, rfl, hstep, us, q', vs', rfl, htail, hrest⟩ := h
    exact ⟨_, _, vs', by simp, .variablePath name hstep htail, hrest⟩
  case openBracket =>
    obtain ⟨us, q, vs, rfl, hinner, us', q', vs', rfl, htail, hrest⟩ := h
    exact ⟨_, _, vs', by simp, .variablePath name (.bracketsStep hinner) htail, hrest⟩

/-- One step back: what completes a machine behind a token completes, with the token in
front, the machine before it. -/
theorem Finishes.feed {s s' : PartialPath} {t : Token} {ts : List Token} {p : Path}
    (hfeed : s.feed t = .more s') (h : Finishes s' ts p) : Finishes s (t :: ts) p := by
  unfold PartialPath.feed at hfeed
  split at hfeed
  · exact finishes_head ‹_› hfeed h
  · exact finishes_afterStep ‹_› hfeed h
  · exact finishes_afterDot ‹_› hfeed h
  · exact finishes_inBrackets ‹_› hfeed h
  · rename_i key hspot
    unfold Finishes
    rw [hspot]
    cases t <;> simp only [feedKey, Feeding.more.injEq, reduceCtorEq] at hfeed
    subst hfeed
    exact ⟨ts, rfl, h⟩
  · exact finishes_afterVariable ‹_› hfeed h

/-- A machine that is done at the end of the text has nothing open. -/
theorem finishes_of_complete {s : PartialPath} {p : Path}
    (h : s.feed .endOfInput = .complete p) : Finishes s [] p := by
  unfold PartialPath.feed at h
  split at h
  case h_2 hspot =>
    unfold Finishes
    rw [hspot]
    simp only [feedStep] at h
    split at h
    · rename_i houter
      cases h
      rw [houter]
      exact ⟨[], .noStep, (List.append_nil _).symm⟩
    · cases h
  all_goals cases h

/-- **Soundness.** What a machine accepts completes what it has open. -/
theorem finishes_of_accepts {s : PartialPath} {ts : List Token} {p : Path}
    (h : s.Accepts ts p) : Finishes s ts p := by
  induction ts generalizing s with
  | nil =>
      obtain ⟨s', hafter, hdone⟩ := h
      obtain rfl : s = s' := Option.some.inj hafter
      exact finishes_of_complete hdone
  | cons t ts ih =>
      obtain ⟨s', hfeed, hrest⟩ := accepts_cons.mp h
      exact Finishes.feed hfeed (ih hrest)

/-- The machine accepts exactly the sentences of the grammar, with their meaning. -/
theorem accepts_iff_derives {ts : List Token} {p : Path} :
    start.Accepts ts p ↔ Derives .path ts p := by
  constructor
  · intro h
    obtain ⟨us, q, vs, rfl, hhead, more, hmore, rfl⟩ := finishes_of_accepts h
    exact .path hhead hmore
  · exact Derives.accepts

/-- A sentence stands for one path. -/
theorem Derives.unique {ts : List Token} {p q : Path} (hp : Derives .path ts p)
    (hq : Derives .path ts q) : p = q :=
  hp.accepts.unique hq.accepts

end DocPath
