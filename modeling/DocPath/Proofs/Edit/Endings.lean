import DocPath.Edit.Basic

/-!
# How edits end

An edit ends in one of three ways (`Edit.Ends`): it is rejected, which it reports as an error; it
is ignored, with notices at most; or it is applied, and reports nothing. The document is built anew
in four places only, where a field is written, an item is written, a list gets one more item, and
where something is taken out, and each of them is an application. All other ways through an edit
hand the document back as they got it, also those behind the first decision, where the slot that
was opened does not hold what was looked at (`addIn`, `appendIn`, `setIn` and `removeIn` for every
slot there is). What an edit keeps (`apply_keeps`) and what it reports (`Ends.errors`) is read off
from its ending.
-/

namespace DocPath

theorem Outcome.isApplied_eq_false_iff {outcome : Outcome} :
    outcome.isApplied = false ↔ outcome = .ignored ∨ ∃ error, outcome = .rejected error := by
  constructor
  · intro h
    cases outcome with
    | ignored => exact Or.inl rfl
    | rejected error => exact Or.inr ⟨error, rfl⟩
    | _ => cases h
  · rintro (rfl | ⟨error, rfl⟩) <;> rfl

/-- Why an edit was rejected. -/
def Outcome.error? : Outcome → Option StructuralError
  | .rejected error => some error
  | _ => none

theorem Outcome.error?_of_isApplied {outcome : Outcome} (h : outcome.isApplied = true) :
    outcome.error? = none := by
  cases outcome with
  | rejected error => cases h
  | _ => rfl

/-! ## Kinds of events -/

namespace Event

def isError (e : Event) : Bool :=
  e.level = .error

/-- Whether an event says that a path is parsed. -/
def isCompiling (e : Event) : Bool :=
  e.level = .debug && e.message = "compiling path"

/-- Whether an event says that there was nothing to do. -/
def isNotice : Event → Bool
  | .targetAbsent _ | .noContainer .. | .nothingToRemove _ => true
  | _ => false

theorem not_isError_of_isNotice {e : Event} (h : e.isNotice = true) : ¬e.isError = true := by
  cases e with
  | targetAbsent source | noContainer source found | nothingToRemove source => exact nofun
  | _ => cases h

theorem not_isCompiling_of_isNotice {e : Event} (h : e.isNotice = true) :
    ¬e.isCompiling = true := by
  cases e with
  | targetAbsent source => exact nofun
  | noContainer source found | nothingToRemove source =>
      have hmessage : "nothing to remove" ≠ "compiling path" := by decide
      simp [isCompiling, message, hmessage]
  | _ => cases h

end Event

/-! ## The three endings -/

namespace Edit

variable {document value : Value} {path : CompiledPath} {scope : Scope} {edited : Edited}

/-- **How an edit ends.** -/
inductive Ends (document : Value) (path : CompiledPath) : Edited → Prop where
  | rejected (fault : StructuralFault) : Ends document path (rejected document path fault)
  | ignored {events : List Event} (hnotices : ∀ e ∈ events, e.isNotice = true) :
      Ends document path (ignored document events)
  | applied {edited : Edited} (happlied : edited.outcome.isApplied = true)
      (hsilent : edited.events = []) : Ends document path edited

theorem Ends.silent : Ends document path (Edit.ignored document []) :=
  .ignored (List.forall_mem_nil _)

theorem Ends.notice {e : Event} (h : e.isNotice = true) :
    Ends document path (Edit.ignored document [e]) :=
  .ignored (List.forall_mem_singleton.mpr h)

/-! ## The places where a document is built -/

theorem writeField_isApplied (fill : Value → Value) (fields : Fields Value) (name : String) :
    (writeField fill fields name value).outcome.isApplied = true := by
  unfold writeField
  cases fields.has name <;> rfl

theorem writeItem_isApplied (fill : Value → Value) (items : List Value) (key : Value) (i : Nat) :
    (writeItem fill items key i value).outcome.isApplied = true := by
  unfold writeItem
  split <;> rfl

theorem writeField_ends (fill : Value → Value) (fields : Fields Value) (name : String) :
    Ends document path (writeField fill fields name value) :=
  .applied (writeField_isApplied fill fields name) rfl

theorem writeItem_ends (fill : Value → Value) (items : List Value) (key : Value) (i : Nat) :
    Ends document path (writeItem fill items key i value) := by
  refine .applied (writeItem_isApplied fill items key i) ?_
  unfold writeItem
  split <;> rfl

/-! ## Behind the first decision -/

theorem addIn_ends (slot : Option Slot) (name : String) :
    Ends document path (addIn document slot name value) := by
  unfold addIn
  split
  · exact writeField_ends ..
  · exact .silent

theorem appendIn_ends (slot : Option Slot) :
    Ends document path (appendIn document slot value) := by
  unfold appendIn
  split
  · exact .applied rfl rfl
  · exact .silent

theorem setIn_ends (slot : Option Slot) (key : Value) :
    Ends document path (setIn document slot key value) := by
  unfold setIn
  split
  · split
    · exact writeField_ends ..
    · exact .silent
  · split
    · exact writeItem_ends ..
    · exact .silent
  · exact .silent

theorem removeIn_ends (slot : Option Slot) (key : Value) :
    Ends document path (removeIn document path slot key) := by
  unfold removeIn
  split
  · exact .applied rfl rfl
  · exact .notice rfl

/-! ## Whole edits -/

theorem addValue_ends : Ends document path (addValue document path value scope) := by
  unfold addValue
  simp only
  split
  · exact .rejected _
  · exact addIn_ends _ _

theorem appendValue_ends : Ends document path (appendValue document path value scope) := by
  unfold appendValue
  simp only
  split
  · exact appendIn_ends _
  · exact .rejected _

theorem setValue_ends : Ends document path (setValue document path value scope) := by
  unfold setValue
  simp only
  split
  · exact .notice rfl
  · split
    · exact .rejected _
    · exact .silent
    · exact setIn_ends _ _

theorem removeValue_ends : Ends document path (removeValue document path scope) := by
  unfold removeValue
  simp only
  split
  · split
    · exact removeIn_ends _ _
    · exact .rejected _
  · exact .rejected _
  · exact removeIn_ends _ _
  · exact .notice rfl

theorem apply_ends (e : Edit) (document : Value) (path : CompiledPath) (scope : Scope) :
    Ends document path (e.apply document path scope) := by
  cases e with
  | add value => exact addValue_ends
  | append value => exact appendValue_ends
  | setField value => exact setValue_ends
  | remove => exact removeValue_ends

end Edit

/-! ## What is kept -/

/-- Unless it was applied, an edit left the document as it was. -/
def Edited.KeepsUnlessApplied (document : Value) (edited : Edited) : Prop :=
  edited.outcome.isApplied = false → edited.document = document

namespace Edit

variable {document : Value} {path : CompiledPath} {edited : Edited}

theorem Ends.keeps (h : Ends document path edited) : edited.KeepsUnlessApplied document := by
  intro hnot
  cases h with
  | rejected fault => rfl
  | ignored _ => rfl
  | applied happlied _ =>
      rw [happlied] at hnot
      cases hnot

/-- An edit that is ignored or rejected leaves the document as it was. -/
theorem apply_keeps (e : Edit) (document : Value) (path : CompiledPath) (scope : Scope) :
    (e.apply document path scope).KeepsUnlessApplied document :=
  (e.apply_ends document path scope).keeps

/-! ## What is reported -/

/-- An edit reports an error if it is rejected, once, and not otherwise. -/
theorem Ends.errors (h : Ends document path edited) :
    edited.events.filter (·.isError) = (edited.outcome.error?.map Event.editRejected).toList := by
  cases h with
  | rejected fault => rfl
  | ignored hnotices =>
      exact List.filter_eq_nil_iff.mpr fun e he => Event.not_isError_of_isNotice (hnotices e he)
  | applied happlied hsilent =>
      rw [hsilent, Outcome.error?_of_isApplied happlied]
      rfl

/-- The error names the path as it was given. -/
theorem Ends.error_path (h : Ends document path edited) {error : StructuralError}
    (herror : edited.outcome.error? = some error) : error.path = path.source := by
  cases h with
  | rejected fault =>
      obtain rfl := Option.some.inj herror
      rfl
  | ignored _ => cases herror
  | applied happlied _ =>
      rw [Outcome.error?_of_isApplied happlied] at herror
      cases herror

/-- No path is parsed within an edit. -/
theorem Ends.filter_isCompiling (h : Ends document path edited) :
    edited.events.filter (·.isCompiling) = [] := by
  cases h with
  | rejected fault => rfl
  | ignored hnotices =>
      exact List.filter_eq_nil_iff.mpr fun e he =>
        Event.not_isCompiling_of_isNotice (hnotices e he)
  | applied _ hsilent =>
      rw [hsilent]
      rfl

end Edit

end DocPath
