import DocPath.CommandLine.Command
import DocPath.Proofs.Model.Run
import DocPath.Proofs.Value.Json

/-!
# The command that edits a document

The command reads a document, edits it once and writes it, whatever the edit did
(`mutate_eq_ok`). So an edit that is not applied leaves the document with nothing but the two
conversions behind it, and these keep all but the integers that need 64 bits without a sign
(`mutate_unapplied_document`).
-/

namespace DocPath.CommandLine

theorem bind_eq_ok {ε α β : Type} {x : Except ε α} {f : α → Except ε β} {b : β}
    (h : x >>= f = .ok b) : ∃ a, x = .ok a ∧ f a = .ok b := by
  cases x with
  | error e => cases h
  | ok a => exact ⟨a, rfl, h⟩

theorem readDocument_eq_ok {input : Option String} {document : Value}
    (h : readDocument input = .ok document) :
    ∃ text j, input = some text ∧ Json.read text = some j ∧ document = Value.ofJson j := by
  cases input with
  | none => cases h
  | some text =>
      simp only [readDocument, readValue, Value.read] at h
      cases hread : Json.read text with
      | none => simp [hread] at h
      | some j =>
          simp only [hread, Option.map_some, Except.ok.injEq] at h
          exact ⟨text, j, rfl, hread, h.symm⟩

/-- What stands behind the answer of the command: a document that was read, and one edit of it. -/
theorem mutate_eq_ok {o : MutateOptions} {m : Mutated} (h : mutate o = .ok m) :
    ∃ text j edit bindings, o.input = some text ∧ Json.read text = some j ∧
      ((Model.ofDocument (.ofJson j)).edit o.path edit bindings).result = .ok m.outcome ∧
      m.document =
        ((Model.ofDocument (.ofJson j)).edit o.path edit bindings).model.document.toJson := by
  unfold mutate at h
  obtain ⟨bindings, _, h⟩ := bind_eq_ok h
  obtain ⟨edit, _, h⟩ := bind_eq_ok h
  obtain ⟨document, hdocument, h⟩ := bind_eq_ok h
  obtain ⟨text, j, htext, hread, rfl⟩ := readDocument_eq_ok hdocument
  refine ⟨text, j, edit, bindings, htext, hread, ?_⟩
  simp only at h
  split at h
  · rename_i outcome houtcome
    obtain rfl := Except.ok.inj h
    exact ⟨houtcome, rfl⟩
  · cases h

/-- **An edit that is not applied changes large integers only.** The document that is written is
the one that was read, with each integer that 64 bits with a sign do not hold replaced by a
floating-point number nearest to it, a multiple of 2048. It is the one that was read exactly if
there is no such integer in it. -/
theorem mutate_unapplied_document (o : MutateOptions) (m : Mutated) (h : mutate o = .ok m)
    (hunapplied : m.outcome = .ignored ∨ ∃ error, m.outcome = .rejected error) :
    ∃ text j, o.input = some text ∧ Json.read text = some j ∧
      m.document = j.narrowed ∧ (m.document = j ↔ j.isNarrow = true) ∧
      ∀ n inRange, Int64.maxValue.toInt < n →
        ∃ x finite k, (JsonNumber.integer n inRange).narrowed = .number (.float x finite) ∧
          x.toNat? = some k ∧ k % 2048 = 0 ∧ ((k : Int) - n).natAbs ≤ 1024 := by
  obtain ⟨text, j, edit, bindings, htext, hread, houtcome, hdocument⟩ := mutate_eq_ok h
  have hkept : ((Model.ofDocument (.ofJson j)).edit o.path edit bindings).model.document =
      .ofJson j := by
    apply Model.edit_document
    intro outcome hresult
    obtain rfl : m.outcome = outcome := Except.ok.inj (houtcome.symm.trans hresult)
    exact Outcome.isApplied_eq_false_iff.mpr hunapplied
  have hnarrowed : m.document = j.narrowed := by
    rw [hdocument, hkept]
    exact Value.toJson_ofJson j
  refine ⟨text, j, htext, hread, hnarrowed, ?_, ?_⟩
  · rw [hnarrowed]
    exact j.narrowed_eq_self_iff
  · intro n inRange hlarge
    exact JsonNumber.exists_narrowed_eq_float inRange hlarge

/-- Nothing can be appended to the name; the large integer stands beside it. -/
def appendToName : MutateOptions where
  verb := .append
  path := "name"
  value := some "1"
  input := some "\x7b\"id\":18446744073709551615,\"name\":\"x\"\x7d"
  bindings := []

theorem mutate_appendToName :
    ∃ m, mutate appendToName = .ok m ∧ ∃ error, m.outcome = .rejected error := by
  have hrejected : (mutate appendToName).toOption.map (·.outcome.isRejected) = some true := by
    decide +kernel
  cases hmutate : mutate appendToName with
  | error failure =>
      rw [hmutate] at hrejected
      cases hrejected
  | ok m =>
      refine ⟨m, rfl, ?_⟩
      rw [hmutate] at hrejected
      have houtcome : m.outcome.isRejected = true := Option.some.inj hrejected
      cases hcase : m.outcome with
      | rejected error => exact ⟨error, rfl⟩
      | _ => simp [hcase, Outcome.isRejected] at houtcome

theorem mutate_unapplied_document_large :
    ∃ m, (mutate appendToName = .ok m ∧ ∃ error, m.outcome = .rejected error) ∧
      ∃ text j, appendToName.input = some text ∧ Json.read text = some j ∧
        m.document = j.narrowed ∧ (m.document = j ↔ j.isNarrow = true) := by
  obtain ⟨m, hmutate, hrejected⟩ := mutate_appendToName
  obtain ⟨text, j, htext, hread, hdocument, hsame, _⟩ :=
    mutate_unapplied_document appendToName m hmutate (Or.inr hrejected)
  exact ⟨m, ⟨hmutate, hrejected⟩, text, j, htext, hread, hdocument, hsame⟩

/-- The document that is written after a rejected edit is not always the one that was read. -/
theorem not_forall_unapplied_document_eq :
    ¬ ∀ (o : MutateOptions) (m : Mutated) (text : String) (j : Json),
      mutate o = .ok m → (m.outcome = .ignored ∨ ∃ error, m.outcome = .rejected error) →
      o.input = some text → Json.read text = some j → m.document = j := by
  intro hall
  obtain ⟨m, hmutate, hrejected⟩ := mutate_appendToName
  have hwritten : ((mutate appendToName).toOption.map (·.document.compact)) ≠
      (appendToName.input.bind Json.read).map Json.compact := by decide +kernel
  obtain ⟨text, j, _, _, htext, hread, _⟩ := mutate_eq_ok hmutate
  have hsame := hall appendToName m text j hmutate (Or.inr hrejected) htext hread
  rw [hmutate, htext, Option.bind_some, hread] at hwritten
  exact hwritten (congrArg (fun j => some (Json.compact j)) hsame)

end DocPath.CommandLine
