import DocPath.Proofs.Edit.Endings
import DocPath.Registry.Standard
import Mathlib.Control.Monad.Basic
import Mathlib.Tactic.ByContra
import Mathlib.Tactic.SplitIfs

/-!
# Runs of calls

A model is called again and again, directly or by the standard methods of a registry. What one
call keeps as long as it does not report a change, a run keeps as long as none of its calls
reports one (`run_document_eq`). A call that reports no change keeps the document: a look-up
never touches it, and an edit that was not applied does not either.
-/

namespace DocPath

namespace Model

/-- What a model can be asked for. -/
inductive Call where
  | lookup (path : String) (bindings : Bindings)
  | get (path : String) (bindings : Bindings)
  | edit (path : String) (e : Edit) (bindings : Bindings)

/-- What a call returned. -/
inductive Report where
  | resolved (result : Except SyntaxError Resolution)
  | found (result : Except SyntaxError (Option Value))
  | edited (result : Except SyntaxError Outcome)

/-- Whether an edit was applied. -/
def Report.isApplied : Report → Bool
  | .edited (.ok outcome) => outcome.isApplied
  | _ => false

def call (m : Model) : Call → ModelStep Report
  | .lookup path bindings =>
    let step := m.lookup path bindings
    ⟨.resolved step.result, step.model, step.events⟩
  | .get path bindings =>
    let step := m.get path bindings
    ⟨.found step.result, step.model, step.events⟩
  | .edit path e bindings =>
    let step := m.edit path e bindings
    ⟨.edited step.result, step.model, step.events⟩

variable {ι α : Type}

/-- One step after the other, each on the model that the one before it left. -/
def run (step : Model → ι → ModelStep α) (m : Model) : List ι → ModelStep (List α)
  | [] => ⟨[], m, []⟩
  | i :: rest =>
    let first := step m i
    let later := run step first.model rest
    ⟨first.result :: later.result, later.model, first.events ++ later.events⟩

/-- If a step that does not report a change makes none, a run without such a report makes none. -/
theorem run_document_eq {step : Model → ι → ModelStep α} (changes : α → Bool) {steps : List ι}
    (hstep : ∀ i ∈ steps, ∀ m,
      changes (step m i).result = false → (step m i).model.document = m.document)
    (m : Model) (hnone : ∀ report ∈ (run step m steps).result, changes report = false) :
    (run step m steps).model.document = m.document := by
  induction steps generalizing m with
  | nil => rfl
  | cons i rest ih =>
      have hfirst : (step m i).model.document = m.document :=
        hstep i (List.mem_cons_self ..) m (hnone _ (List.mem_cons_self ..))
      have hlater := ih (fun j hj => hstep j (List.mem_cons_of_mem _ hj)) (step m i).model
        (fun report hreport => hnone report (List.mem_cons_of_mem _ hreport))
      exact hlater.trans hfirst

/-- A change that a run made is reported by one of its steps. -/
theorem exists_change_of_run {step : Model → ι → ModelStep α} (changes : α → Bool)
    {steps : List ι}
    (hstep : ∀ i ∈ steps, ∀ m,
      changes (step m i).result = false → (step m i).model.document = m.document)
    {m : Model} (hne : (run step m steps).model.document ≠ m.document) :
    ∃ report ∈ (run step m steps).result, changes report = true := by
  by_contra hnone
  refine hne (run_document_eq changes hstep m fun report hreport => ?_)
  rw [← Bool.not_eq_true]
  intro hchanges
  exact hnone ⟨report, hreport, hchanges⟩

/-! ## Calls of a model -/

theorem lookup_document (m : Model) (path : String) (bindings : Bindings) :
    (m.lookup path bindings).model.document = m.document := by
  unfold lookup
  split <;> rfl

theorem edit_document (m : Model) (path : String) (e : Edit) (bindings : Bindings)
    (h : ∀ outcome, (m.edit path e bindings).result = .ok outcome → outcome.isApplied = false) :
    (m.edit path e bindings).model.document = m.document := by
  unfold edit at h ⊢
  split
  · rename_i compiled cache events hcompile
    simp only [hcompile] at h
    exact e.apply_keeps m.document compiled _ (h _ rfl)
  · rfl

theorem call_document (m : Model) (c : Call) (h : (m.call c).result.isApplied = false) :
    (m.call c).model.document = m.document := by
  cases c with
  | lookup path bindings => exact m.lookup_document path bindings
  | get path bindings => exact m.lookup_document path bindings
  | edit path e bindings =>
      refine m.edit_document path e bindings fun outcome hresult => ?_
      have happlied : (Report.edited (m.edit path e bindings).result).isApplied = false := h
      rw [hresult] at happlied
      exact happlied

end Model

/-! ## Calls by name -/

namespace Method

/-- Whether a method reports a change. -/
def returnsTrue : Except MethodError Value → Bool
  | .ok (.boolean b) => b
  | _ => false

theorem returnsTrue_iff {result : Except MethodError Value} :
    returnsTrue result = true ↔ result = .ok (.boolean true) := by
  unfold returnsTrue
  split
  · simp
  · rename_i hother
    simp only [Bool.false_eq_true, false_iff]
    exact hother true

theorem ofCall_result {call : List Value → Except MethodError EditCall} {m : Model}
    {arguments : List Value} {c : EditCall} {outcome : Outcome} (hcall : call arguments = .ok c)
    (hresult : (m.edit c.path c.edit c.bindings).result = .ok outcome) :
    (ofCall call m arguments).result = .ok (.boolean outcome.isApplied) := by
  unfold ofCall
  simp only [hcall, hresult]

/-- A method that stands for an edit returns true unless it keeps the document. -/
theorem ofCall_document {call : List Value → Except MethodError EditCall} {m : Model}
    {arguments : List Value} (h : returnsTrue (ofCall call m arguments).result = false) :
    (ofCall call m arguments).model.document = m.document := by
  unfold ofCall at h ⊢
  split
  · rfl
  · rename_i c hcall
    simp only [hcall] at h
    refine m.edit_document c.path c.edit c.bindings fun outcome hresult => ?_
    rw [hresult] at h
    exact h

end Method

namespace Registry

/-- A name that still stands for the standard edit of that name. -/
def IsStandardAt (r : Registry) (name : String) : Prop :=
  ∃ method, standard.methods.get? name = some method ∧ r.methods.get? name = some method

theorem exists_ofCall_of_standard {name : String} {method : Method}
    (h : standard.methods.get? name = some method) : ∃ call, method = Method.ofCall call := by
  simp only [standard, Fields.ofList, List.foldl_cons, List.foldl_nil, Fields.get?_put] at h
  split_ifs at h
  · exact ⟨_, (Option.some.inj h).symm⟩
  · exact ⟨_, (Option.some.inj h).symm⟩
  · exact ⟨_, (Option.some.inj h).symm⟩
  · exact ⟨_, (Option.some.inj h).symm⟩
  · cases h

theorem call_document {r : Registry} {name : String} (hstandard : r.IsStandardAt name) {m : Model}
    {arguments : List Value} (h : Method.returnsTrue (r.call m name arguments).result = false) :
    (r.call m name arguments).model.document = m.document := by
  obtain ⟨method, hmethod, hname⟩ := hstandard
  obtain ⟨call, rfl⟩ := exists_ofCall_of_standard hmethod
  unfold Registry.call at h ⊢
  rw [hname] at h ⊢
  exact Method.ofCall_document h

end Registry

/-! ## Nothing changes unreported -/

namespace Model

theorem Report.isApplied_edited_eq_false_iff {result : Except SyntaxError Outcome} :
    (Report.edited result).isApplied = false ↔
      (∃ error, result = .error error) ∨ result = .ok .ignored ∨
        ∃ error, result = .ok (.rejected error) := by
  cases result with
  | error error => simp [isApplied]
  | ok outcome => simp [isApplied, Outcome.isApplied_eq_false_iff]

/-- **Nothing changes unreported.** An edit that fails to parse, is ignored or is rejected keeps
the document, and so does a standard method that fails or returns false. Therefore a run that
leaves another document contains a call that reported a change. -/
theorem unreported_keeps_document :
    (∀ (m : Model) (path : String) (e : Edit) (bindings : Bindings),
      let step := m.edit path e bindings
      ((Report.edited step.result).isApplied = false ↔
        (∃ error, step.result = .error error) ∨ step.result = .ok .ignored ∨
          ∃ error, step.result = .ok (.rejected error)) ∧
      ((Report.edited step.result).isApplied = false → step.model.document = m.document)) ∧
    (∀ (m : Model) (calls : List Call),
      let ran := run call m calls
      ran.model.document ≠ m.document → ∃ report ∈ ran.result, report.isApplied = true) ∧
    (∀ (r : Registry) (name : String), r.IsStandardAt name →
      ∀ (m : Model) (arguments : List Value),
        let step := r.call m name arguments
        ((∃ error, step.result = .error error) ∨ step.result = .ok (.boolean false)) →
          step.model.document = m.document) ∧
    (∀ (r : Registry) (m : Model) (calls : List (String × List Value)),
      (∀ c ∈ calls, r.IsStandardAt c.1) →
        let ran := run (fun m c => r.call m c.1 c.2) m calls
        ran.model.document ≠ m.document → .ok (.boolean true) ∈ ran.result) := by
  refine ⟨?_, ?_, ?_, ?_⟩
  · intro m path e bindings
    exact ⟨Report.isApplied_edited_eq_false_iff, m.call_document (.edit path e bindings)⟩
  · intro m calls ran hne
    exact exists_change_of_run Report.isApplied (fun c _ m => m.call_document c) hne
  · intro r name hname m arguments step hresult
    apply Registry.call_document hname
    rcases hresult with ⟨error, herror⟩ | hfalse
    · rw [herror]
      rfl
    · rw [hfalse]
      rfl
  · intro r m calls hstandard ran hne
    obtain ⟨report, hreport, htrue⟩ :=
      exists_change_of_run Method.returnsTrue
        (fun c hc m => Registry.call_document (hstandard c hc)) hne
    rw [Method.returnsTrue_iff] at htrue
    exact htrue ▸ hreport

/-- A list gets an item, by a call and by name, and keeps its items in calls that are rejected or
ignored. -/
theorem unreported_keeps_list :
    let m := ofDocument (.object [("l", .array [.integer 1])])
    let rejected := m.edit "l.x" (.add .null) []
    let calls : List Call := [.get "l" [], .edit "l" (.append .null) []]
    let removed := Registry.standard.call m "$remove" [.string "x"]
    let named := [("$append", [.string "l", .null])]
    let ran := run (fun m c => Registry.standard.call m c.1 c.2) m named
    ((Report.edited rejected.result).isApplied = false ∧ rejected.model.document = m.document) ∧
    ((run call m calls).model.document ≠ m.document ∧
      ∃ report ∈ (run call m calls).result, report.isApplied = true) ∧
    (removed.result = .ok (.boolean false) ∧ removed.model.document = m.document) ∧
    (ran.model.document ≠ m.document ∧ .ok (.boolean true) ∈ ran.result) := by
  intro m rejected calls removed named ran
  obtain ⟨hedit, hrun, hcall, hnamed⟩ := unreported_keeps_document
  -- another document was left where the list has a second item
  have hne {document : Value} (h : (document.find? [.string "l", .integer 1]).isSome = true) :
      document ≠ m.document := by
    rintro rfl
    exact absurd h (by decide)
  have hrejected : (Report.edited rejected.result).isApplied = false := by decide +kernel
  have hchanged : (run call m calls).model.document ≠ m.document := hne (by decide +kernel)
  have hremoved : removed.result = .ok (.boolean false) := by
    have hcompile : CompiledPath.compile "x" = .ok ⟨"x", [.name "x"]⟩ := by decide +kernel
    have hignored : (m.edit "x" .remove []).result = .ok .ignored := by
      unfold edit PathCache.compile
      simp only [show m.cache.entries.get? "x" = none from rfl, hcompile]
      rfl
    have harguments : Method.removingCall Registry.removeName [.string "x"] =
        .ok ⟨"x", .remove, []⟩ := rfl
    exact Method.ofCall_result harguments hignored
  have hran : ran.model.document ≠ m.document := hne (by decide +kernel)
  have hstandard : ∀ c ∈ named, Registry.standard.IsStandardAt c.1 := by
    intro c hc
    obtain rfl := List.mem_singleton.mp hc
    exact ⟨_, rfl, rfl⟩
  exact ⟨⟨hrejected, (hedit m "l.x" (.add .null) []).2 hrejected⟩,
    ⟨hchanged, hrun m calls hchanged⟩,
    ⟨hremoved, hcall _ "$remove" ⟨_, rfl, rfl⟩ m _ (Or.inr hremoved)⟩,
    ⟨hran, hnamed _ m named hstandard hran⟩⟩

end Model

end DocPath
