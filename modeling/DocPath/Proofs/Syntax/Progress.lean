import DocPath.Proofs.Syntax.Procedures

/-!
# Progress

Reading always gets on. A lexer moves with each token, or stands still for good. The procedures that read a
path call one another without a bound, and yet they come to an end on every parser, whatever it has in hand
and wherever its lexer stands: what is left to read (`Parser.remaining`) never grows, not even on the way
to an error, and it falls by one at least for each step that they find (`Procedure.Ends`). Between two
calls of one procedure a token is taken, which is all that the induction needs (`Procedure.progress`).
-/

namespace DocPath

mutual

/-- The number of steps in a step: itself, and those of nested paths at every depth. -/
def Segment.size : Segment → Nat
  | .nested path => Path.size path + 1
  | .index _ | .name _ | .variable _ => 1

def Path.size : List Segment → Nat
  | [] => 0
  | step :: rest => step.size + Path.size rest

end

theorem Segment.size_pos (step : Segment) : 0 < step.size := by
  cases step <;> simp [Segment.size]

/-- Nothing is ever put back into the text or into the hand. -/
theorem Parser.remaining_advance_le {p p' : Parser} {taken : Bool} {result : Except SyntaxError Unit}
    (h : p.advance taken = (result, p')) (ht : p.current ≠ .endOfInput) :
    p'.remaining ≤ p.remaining := by
  cases result with
  | ok _ => exact (remaining_advance h ht).le
  | error e =>
      have hlexer : p'.lexer = p.lexer.next.2 := by rw [← lexer_advance p taken, h]
      have hle := p.lexer.length_rest_next_le
      have hhand : (if p'.current = .endOfInput then 0 else 1) ≤ 1 := by split <;> omega
      simp only [remaining, ht, if_false, hlexer]
      omega

namespace Procedure

variable {α β : Type} {f : Procedure α} {size : α → Nat} {p : Parser} {m n : Nat}

/-- A procedure comes to an end on a parser and leaves no more than a bound to read, and less by the
size of what it finds, if it finds something. -/
def Ends (f : Procedure α) (size : α → Nat) (p : Parser) (bound : Nat) : Prop :=
  ∃ result p', f.run p = some (result, p') ∧ p'.remaining ≤ bound ∧
    ∀ found, result = .ok found → p'.remaining + size found ≤ bound

theorem Ends.mono (h : f.Ends size p m) (hle : m ≤ n) : f.Ends size p n := by
  obtain ⟨result, p', hrun, hbound, hfound⟩ := h
  exact ⟨result, p', hrun, hbound.trans hle, fun found hok => (hfound found hok).trans hle⟩

theorem ends_pure {a : α} (h : p.remaining + size a ≤ n) : (pure a : Procedure α).Ends size p n := by
  refine ⟨_, p, run_pure a p, (Nat.le_add_right _ _).trans h, ?_⟩
  rintro found ⟨⟩
  exact h

theorem ends_refuse (expected : Expectation) (h : p.remaining ≤ n) :
    (refuse expected : Procedure α).Ends size p n :=
  ⟨_, p, run_refuse expected p, h, by rintro found ⟨⟩⟩

theorem Ends.bind {size' : β → Nat} {g : α → Procedure β} (hf : f.Ends size p m) (hle : m ≤ n)
    (hg : ∀ a p', p'.remaining + size a ≤ m → (g a).Ends size' p' n) : (f >>= g).Ends size' p n := by
  obtain ⟨result, p', hrun, hbound, hfound⟩ := hf
  cases result with
  | error e =>
      exact ⟨_, p', run_bind_of_error hrun, hbound.trans hle, by rintro found ⟨⟩⟩
  | ok a =>
      unfold Ends
      rw [run_bind_of_ok hrun]
      exact hg a p' (hfound a rfl)

theorem ends_hand_bind {g : Token → Procedure α} (h : (g p.current).Ends size p n) :
    (hand >>= g).Ends size p n := h

theorem ends_advance {taken : Bool} (h : p.current ≠ .endOfInput) :
    (advance taken).Ends (fun _ => 1) p p.remaining := by
  cases hadvance : p.advance taken with
  | mk result p' =>
      refine ⟨result, p', run_advance_of_eq hadvance, Parser.remaining_advance_le hadvance h, ?_⟩
      rintro found rfl
      exact Parser.remaining_advance hadvance h

theorem ends_expect {t : Token} (expected : Expectation) (ht : t ≠ .endOfInput) :
    (expect t expected).Ends (fun _ => 1) p p.remaining := by
  refine ends_hand_bind ?_
  split
  · rename_i hcurrent
    exact ends_advance (hcurrent ▸ ht)
  · exact ends_refuse expected (Nat.le_refl _)

/-- A token is taken for a step that stands alone. -/
theorem ends_step {taken : Bool} {step : Segment} (h : p.current ≠ .endOfInput) (hstep : step.size = 1) :
    (advance taken >>= fun _ => (pure step : Procedure Segment)).Ends Segment.size p p.remaining := by
  refine (ends_advance h).bind (Nat.le_refl _) fun _ p' htaken => ?_
  exact ends_pure (hstep ▸ htaken)

/-! ## The procedures -/

theorem ends_dotted (p : Parser) : dotted.Ends Segment.size p p.remaining := by
  refine ends_hand_bind ?_
  cases ht : p.current with
  | identifier name | «variable» name => exact ends_step (by simp [ht]) rfl
  | integer k =>
      by_cases hk : 0 ≤ k
      · simp only [if_pos hk]
        exact ends_step (by simp [ht]) rfl
      · simp only [if_neg hk]
        exact ends_refuse _ (Nat.le_refl _)
  | _ => exact ends_refuse _ (Nat.le_refl _)

/-- The procedures that are called again in brackets and behind a step come to an end on a parser. What
stands in brackets may count for the bracket in front of it, too. -/
structure Progress (p : Parser) : Prop where
  path : path.Ends Path.size p p.remaining
  tail : tail.Ends Path.size p p.remaining
  content : content.Ends Segment.size p (p.remaining + 1)

section

variable (below : ∀ q : Parser, q.remaining < p.remaining → Progress q)

include below

theorem ends_brackets : brackets.Ends Segment.size p p.remaining := by
  rw [brackets]
  refine (ends_expect _ (by simp)).bind (Nat.le_refl _) fun _ p₁ h₁ => ?_
  refine (below p₁ h₁).content.bind h₁ fun step p₂ h₂ => ?_
  refine (ends_expect _ (by simp)).bind (by omega) fun _ p₃ h₃ => ?_
  exact ends_pure (by omega)

theorem ends_head : head.Ends Segment.size p p.remaining := by
  rw [head]
  refine ends_hand_bind ?_
  cases ht : p.current with
  | identifier name | «variable» name => exact ends_step (by simp [ht]) rfl
  | openBracket => exact ends_brackets below
  | _ => exact ends_refuse _ (Nat.le_refl _)

/-- Behind a step there is less to read. -/
theorem ends_rest {step : Segment} {q : Parser} (h : q.remaining + step.size ≤ p.remaining) :
    (tail >>= fun rest => (pure (step :: rest) : Procedure Path)).Ends Path.size q p.remaining := by
  have hpos := step.size_pos
  refine (below q (by omega)).tail.bind (by omega) fun rest q' h' => ?_
  exact ends_pure (by simp only [Path.size]; omega)

theorem ends_path : path.Ends Path.size p p.remaining := by
  rw [path]
  exact (ends_head below).bind (Nat.le_refl _) fun _ _ h => ends_rest below h

theorem ends_tail : tail.Ends Path.size p p.remaining := by
  rw [tail]
  refine ends_hand_bind ?_
  cases ht : p.current with
  | dot =>
      refine (ends_advance (by simp [ht])).bind (Nat.le_refl _) fun _ p₁ h₁ => ?_
      refine (ends_dotted p₁).bind (by omega) fun step p₂ h₂ => ?_
      exact ends_rest below (by omega)
  | openBracket =>
      exact (ends_brackets below).bind (Nat.le_refl _) fun _ _ h => ends_rest below h
  | _ => exact ends_pure (Nat.le_refl _)

theorem ends_content : content.Ends Segment.size p (p.remaining + 1) := by
  rw [content]
  refine ends_hand_bind ?_
  cases ht : p.current with
  | integer k | string key => exact (ends_step (by simp [ht]) rfl).mono (Nat.le_succ _)
  | «variable» name =>
      refine (ends_advance (by simp [ht])).bind (Nat.le_succ _) fun _ p₁ h₁ => ?_
      refine ends_hand_bind ?_
      split
      · exact ends_pure (by simp only [Segment.size]; omega)
      · refine (below p₁ h₁).tail.bind (by omega) fun rest p₂ h₂ => ?_
        exact ends_pure (by simp only [Segment.size, Path.size]; omega)
  | identifier name | openBracket =>
      refine (ends_path below).bind (Nat.le_succ _) fun inner p' h => ?_
      exact ends_pure (by simp only [Segment.size]; omega)
  | _ => exact ends_refuse _ (Nat.le_succ _)

end

/-- By induction on what is left to read: a procedure calls itself only behind a token. -/
theorem progress (p : Parser) : Progress p := by
  induction hrest : p.remaining using Nat.strongRecOn generalizing p with
  | ind n ih =>
      subst hrest
      have below : ∀ q, q.remaining < p.remaining → Progress q := fun q hq => ih _ hq q rfl
      exact ⟨ends_path below, ends_tail below, ends_content below⟩

end Procedure

namespace Parser

open Procedure

/-- In a text, the characters that are left are those behind the offset. -/
theorem ReadsFrom.remaining_eq {text : List Char} {p : Parser} (h : p.ReadsFrom text) :
    p.remaining = text.length - p.lexer.offset + if p.current = .endOfInput then 0 else 1 := by
  obtain ⟨before, hbefore⟩ := h
  have hleft : text.length - p.lexer.offset = p.lexer.rest.length := by
    rw [hbefore.text_eq, hbefore.offset_eq, List.length_append, Nat.add_sub_cancel_left]
  rw [hleft, remaining]

/-- **Reading makes progress.** A lexer, however often it was called and whatever it found, moves on with
each token but the end of the text; or it passes over blanks and nothing else, at the end of the text, in
front of a `$` without a name or of a character that starts no token, and then each later call is this call
again. So all the procedures that read a path come to an end on every parser, with what the parser returns:
the unread characters, and one for a token in hand, never become more, and for each step that is found,
nested ones included, they become fewer. -/
theorem reading_progresses (text : String) (calls : Nat) :
    let l := (Lexer.ofText text).after calls
    (∀ t, l.next.1 = .ok t → t ≠ .endOfInput → l.offset < l.next.2.offset) ∧
    (l.StandsStill ↔ l.next.1 = .ok .endOfInput ∨ ∃ e, l.next.1 = .error e ∧
      (e.fault = .lexical .missingVariableName ∨ ∃ c, e.fault = .lexical (.strayCharacter c))) ∧
    (l.StandsStill → ∀ later, (l.after later).next = l.next) ∧
    ∀ p : Parser,
      (p.ReadsFrom text.toList → p.remaining =
        text.toList.length - p.lexer.offset + if p.current = .endOfInput then 0 else 1) ∧
      path.Ends Path.size p p.remaining ∧
      head.Ends Segment.size p p.remaining ∧
      tail.Ends Path.size p p.remaining ∧
      dotted.Ends Segment.size p p.remaining ∧
      brackets.Ends Segment.size p p.remaining ∧
      Procedure.parse.run p = some p.parse := by
  intro l
  refine ⟨fun t => Lexer.offset_lt_next, Lexer.standsStill_iff, Lexer.StandsStill.next_after, fun p => ?_⟩
  have below : ∀ q : Parser, q.remaining < p.remaining → Progress q := fun q _ => progress q
  exact ⟨ReadsFrom.remaining_eq, (progress p).path, ends_head below, (progress p).tail, ends_dotted p,
    ends_brackets below, run_parse p⟩

/-- Behind the bracket stands a `$` without a name. A parser with the bracket in hand finds no step. -/
theorem reading_progresses_at_dollar :
    let l := (Lexer.ofText "a[ $").after 1
    let m := (Lexer.ofText "a[ $").after 2
    let p : Parser := ⟨m, .openBracket, ⟨1, 2⟩⟩
    (l.next.1 = .ok .openBracket ∧ Token.openBracket ≠ .endOfInput ∧ l.offset < l.next.2.offset) ∧
    (m.next.1 = .error ⟨⟨1, 4⟩, .lexical .missingVariableName⟩ ∧ m.StandsStill ∧
      ∀ later, (m.after later).next = m.next) ∧
    (p.ReadsFrom "a[ $".toList ∧ p.remaining = 3) ∧
    p.current = .openBracket ∧ brackets.Ends Segment.size p p.remaining := by
  intro l m p
  obtain ⟨hmoves, -⟩ := reading_progresses "a[ $" 1
  obtain ⟨-, hstands, hlater, hparser⟩ := reading_progresses "a[ $" 2
  obtain ⟨hremaining, -, -, -, -, hbrackets, -⟩ := hparser p
  have htoken : l.next.1 = .ok .openBracket := by decide +kernel
  have hfault : m.next.1 = .error ⟨⟨1, 4⟩, .lexical .missingVariableName⟩ := by decide +kernel
  have hstill : m.StandsStill := hstands.mpr (Or.inr ⟨_, hfault, Or.inl rfl⟩)
  have hreads : p.ReadsFrom "a[ $".toList := Lexer.exists_standsBehind_after "a[ $" 2
  have hoffset : p.lexer.offset = 2 := by decide +kernel
  refine ⟨⟨htoken, by simp, hmoves _ htoken (by simp)⟩, ⟨hfault, hstill, hlater hstill⟩,
    ⟨hreads, ?_⟩, rfl, hbrackets⟩
  rw [hremaining hreads, hoffset]
  rfl

end Parser

end DocPath
