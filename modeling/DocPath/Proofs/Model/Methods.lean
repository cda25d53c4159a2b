import DocPath.Registry.Standard
import Mathlib.Control.Monad.Basic

/-!
# Standard methods

A call of a standard method by name is an edit of the model with the path, the value and the bindings
that stand at their positions among the arguments (`Verb.Asks`), unless one of these is missing or of the
wrong type (`Verb.Refuses`). All are looked at before the model is, in the order of their positions, so a
call with bad arguments touches nothing, not even the counters of the cache
(`Registry.standard_methods_edit`).
-/

namespace DocPath

/-- The edits that have a standard method. -/
inductive Verb where
  | add
  | append
  | setField
  | remove
deriving DecidableEq

/-- Whether an error is about the arguments of a call. -/
def MethodError.isArgumentFault : MethodError → Bool
  | .missingArgument .. | .invalidArgument .. => true
  | _ => false

namespace Verb

def name : Verb → String
  | .add => Registry.addName
  | .append => Registry.appendName
  | .setField => Registry.setFieldName
  | .remove => Registry.removeName

def takesValue : Verb → Bool
  | .remove => false
  | _ => true

/-- Bindings stand behind the path and the value. -/
def bindingsPosition (v : Verb) : Nat :=
  if v.takesValue then 2 else 1

/-- The edit with the argument behind the path, if there is one. -/
def edit? : Verb → Option Value → Option Edit
  | .add, value => value.map .add
  | .append, value => value.map .append
  | .setField, value => value.map .setField
  | .remove, _ => some .remove

/-- The error of a call with bad arguments. Of several bad ones, it is about the first. -/
inductive Refuses (v : Verb) (arguments : List Value) : MethodError → Prop where
  | noPath (h : arguments[0]? = none) : Refuses v arguments (.missingArgument v.name "path" 0)
  | badPath {other : Value} (h : arguments[0]? = some other) (hother : ∀ path, other ≠ .string path) :
      Refuses v arguments (.invalidArgument v.name "path" "a string" other)
  | noValue {path : String} (hpath : arguments[0]? = some (.string path)) (hv : v.takesValue = true)
      (h : arguments[1]? = none) : Refuses v arguments (.missingArgument v.name "value" 1)
  | badBindings {path : String} {other : Value} (hpath : arguments[0]? = some (.string path))
      (hvalue : v.takesValue = true → arguments[1]? ≠ none)
      (h : arguments[v.bindingsPosition]? = some other) (hnull : other ≠ .null)
      (hobject : ∀ fields, other ≠ .object fields) :
      Refuses v arguments (.invalidArgument v.name "bindings" "an object" other)

/-- The edit that a call with good arguments asks for. Bindings that are null or not given are none. -/
structure Asks (v : Verb) (arguments : List Value) (c : Method.EditCall) : Prop where
  path : arguments[0]? = some (.string c.path)
  edit : v.edit? arguments[1]? = some c.edit
  bindings : arguments[v.bindingsPosition]? = some (.object c.bindings) ∨
    c.bindings = [] ∧ (arguments[v.bindingsPosition]? = none ∨
      arguments[v.bindingsPosition]? = some .null)

/-- How the method of a verb reads its arguments. -/
def call (v : Verb) : List Value → Except MethodError Method.EditCall :=
  match v with
  | .add => Method.writingCall v.name .add
  | .append => Method.writingCall v.name .append
  | .setField => Method.writingCall v.name .setField
  | .remove => Method.removingCall v.name

end Verb

/-! ## Arguments -/

namespace Method

variable {path : String} {arguments : List Value} {other : Value} {position : Nat} (method : String)

/-- The path is the first argument. -/
theorem pathArgument_eq (arguments : List Value) : pathArgument method arguments =
    match arguments[0]? with
    | some (Value.string path) => .ok path
    | some other => .error (.invalidArgument method "path" "a string" other)
    | none => .error (.missingArgument method "path" 0) := by
  cases arguments with
  | nil => rfl
  | cons first rest => cases first <;> rfl

theorem pathArgument_of_string (h : arguments[0]? = some (.string path)) :
    pathArgument method arguments = .ok path := by
  rw [pathArgument_eq, h]

theorem pathArgument_of_none (h : arguments[0]? = none) :
    pathArgument method arguments = .error (.missingArgument method "path" 0) := by
  rw [pathArgument_eq, h]

theorem pathArgument_of_other (h : arguments[0]? = some other)
    (hother : ∀ path, other ≠ .string path) :
    pathArgument method arguments = .error (.invalidArgument method "path" "a string" other) := by
  rw [pathArgument_eq, h]
  cases other with
  | string path => exact absurd rfl (hother path)
  | _ => rfl

theorem bindingsArgument_of_object {fields : Fields Value}
    (h : arguments[position]? = some (.object fields)) :
    bindingsArgument method arguments position = .ok fields := by
  rw [bindingsArgument, h]

theorem bindingsArgument_of_none
    (h : arguments[position]? = none ∨ arguments[position]? = some .null) :
    bindingsArgument method arguments position = .ok [] := by
  rw [bindingsArgument]
  rcases h with h | h
  · rw [h]
  · rw [h]

theorem bindingsArgument_of_other (h : arguments[position]? = some other) (hnull : other ≠ .null)
    (hobject : ∀ fields, other ≠ .object fields) :
    bindingsArgument method arguments position =
      .error (.invalidArgument method "bindings" "an object" other) := by
  rw [bindingsArgument, h]
  cases other with
  | null => exact absurd rfl hnull
  | object fields => exact absurd rfl (hobject fields)
  | _ => rfl

end Method

/-! ## Calls -/

namespace Verb

variable {v : Verb} {arguments : List Value}

theorem edit?_eq_none_iff {value : Option Value} :
    v.edit? value = none ↔ v.takesValue = true ∧ value = none := by
  cases v <;> simp [edit?, takesValue]

/-- The edit that the arguments call for. -/
def editArgument (v : Verb) (arguments : List Value) : Except MethodError Edit :=
  match v.edit? arguments[1]? with
  | some edit => .ok edit
  | none => .error (.missingArgument v.name "value" 1)

/-- All methods read their arguments in the same way. -/
theorem call_eq (v : Verb) (arguments : List Value) :
    v.call arguments = (do
      let path ← Method.pathArgument v.name arguments
      let edit ← v.editArgument arguments
      let bindings ← Method.bindingsArgument v.name arguments v.bindingsPosition
      pure ⟨path, edit, bindings⟩) := by
  cases v with
  | remove => rfl
  | add | append | setField =>
      simp only [call, Method.writingCall, Method.valueArgument, editArgument, edit?]
      cases arguments[1]? <;> rfl

theorem call_of_refuses {e : MethodError} (h : v.Refuses arguments e) :
    v.call arguments = .error e := by
  rw [call_eq]
  cases h with
  | noPath h =>
      rw [Method.pathArgument_of_none _ h]
      rfl
  | badPath h hother =>
      rw [Method.pathArgument_of_other _ h hother]
      rfl
  | noValue hpath hv h =>
      rw [Method.pathArgument_of_string _ hpath, editArgument, edit?_eq_none_iff.mpr ⟨hv, h⟩]
      rfl
  | badBindings hpath hvalue h hnull hobject =>
      have hedit : v.edit? arguments[1]? ≠ none := by
        rw [Ne, edit?_eq_none_iff]
        exact fun hnone => hvalue hnone.1 hnone.2
      obtain ⟨edit, hedit⟩ := Option.ne_none_iff_exists'.mp hedit
      rw [Method.pathArgument_of_string _ hpath, editArgument, hedit,
        Method.bindingsArgument_of_other _ h hnull hobject]
      rfl

theorem call_of_asks {c : Method.EditCall} (h : v.Asks arguments c) : v.call arguments = .ok c := by
  have hbindings :
      Method.bindingsArgument v.name arguments v.bindingsPosition = .ok c.bindings := by
    rcases h.bindings with hobject | ⟨hnil, hnone⟩
    · exact Method.bindingsArgument_of_object _ hobject
    · rw [hnil]
      exact Method.bindingsArgument_of_none _ hnone
  rw [call_eq, Method.pathArgument_of_string _ h.path, editArgument, h.edit, hbindings]
  rfl

/-- Arguments are either bad or good. -/
theorem refuses_or_asks (v : Verb) (arguments : List Value) :
    (∃ e, v.Refuses arguments e) ∨ ∃ c, v.Asks arguments c := by
  cases hpath : arguments[0]? with
  | none => exact Or.inl ⟨_, .noPath hpath⟩
  | some first =>
      by_cases hstring : ∃ path, first = .string path
      · obtain ⟨path, rfl⟩ := hstring
        cases hedit : v.edit? arguments[1]? with
        | none =>
            obtain ⟨hv, hvalue⟩ := edit?_eq_none_iff.mp hedit
            exact Or.inl ⟨_, .noValue hpath hv hvalue⟩
        | some edit =>
            have hvalue : v.takesValue = true → arguments[1]? ≠ none := by
              intro hv hnone
              rw [edit?_eq_none_iff.mpr ⟨hv, hnone⟩] at hedit
              cases hedit
            cases hbindings : arguments[v.bindingsPosition]? with
            | none => exact Or.inr ⟨⟨path, edit, []⟩, hpath, hedit, Or.inr ⟨rfl, Or.inl hbindings⟩⟩
            | some other =>
                cases other with
                | null =>
                    exact Or.inr ⟨⟨path, edit, []⟩, hpath, hedit, Or.inr ⟨rfl, Or.inr hbindings⟩⟩
                | object fields =>
                    exact Or.inr ⟨⟨path, edit, fields⟩, hpath, hedit, Or.inl hbindings⟩
                | _ =>
                    exact Or.inl ⟨_, .badBindings hpath hvalue hbindings (by rintro ⟨⟩)
                      (by rintro _ ⟨⟩)⟩
      · exact Or.inl ⟨_, .badPath hpath fun path hfirst => hstring ⟨path, hfirst⟩⟩

theorem Refuses.isArgumentFault {e : MethodError} (h : v.Refuses arguments e) :
    e.isArgumentFault = true := by
  cases h <;> rfl

theorem Asks.not_refuses {c : Method.EditCall} (h : v.Asks arguments c) :
    ¬ ∃ e, v.Refuses arguments e := by
  rintro ⟨e, he⟩
  have hcall := call_of_asks h
  rw [call_of_refuses he] at hcall
  cases hcall

/-- Only the arguments up to the bindings are read. -/
theorem call_congr {arguments' : List Value}
    (h : ∀ i ≤ v.bindingsPosition, arguments[i]? = arguments'[i]?) :
    v.call arguments = v.call arguments' := by
  have hone : 1 ≤ v.bindingsPosition := by cases v <;> decide
  rw [call_eq, call_eq, Method.pathArgument_eq, Method.pathArgument_eq, h 0 (Nat.zero_le _),
    editArgument, editArgument, h 1 hone, Method.bindingsArgument, Method.bindingsArgument,
    h _ (Nat.le_refl _)]

theorem call_append (h : v.bindingsPosition < arguments.length) (extra : List Value) :
    v.call (arguments ++ extra) = v.call arguments :=
  call_congr fun _ hi => List.getElem?_append_left (Nat.lt_of_le_of_lt hi h)

end Verb

/-! ## Registries -/

namespace Method

/-- What a method returns for the outcome of its edit. -/
def returned : Except SyntaxError Outcome → Except MethodError Value
  | .ok outcome => .ok (.boolean outcome.isApplied)
  | .error e => .error (.syntaxError e)

theorem not_isArgumentFault_of_returned {result : Except SyntaxError Outcome} {e : MethodError}
    (h : returned result = .error e) : e.isArgumentFault = false := by
  cases result with
  | ok outcome => cases h
  | error e' =>
      cases h
      rfl

theorem ofCall_of_error {call : List Value → Except MethodError EditCall} {arguments : List Value}
    {e : MethodError} (h : call arguments = .error e) (m : Model) :
    ofCall call m arguments = ⟨.error e, m, []⟩ := by
  unfold ofCall
  rw [h]

theorem ofCall_of_ok {call : List Value → Except MethodError EditCall} {arguments : List Value}
    {c : EditCall} (h : call arguments = .ok c) (m : Model) :
    ofCall call m arguments =
      let edited := m.edit c.path c.edit c.bindings
      ⟨returned edited.result, edited.model, edited.events⟩ := by
  unfold ofCall
  rw [h]
  cases hresult : (m.edit c.path c.edit c.bindings).result <;> simp only [hresult, returned]

end Method

namespace Registry

/-- A registry after more methods were registered. -/
def registerAll (r : Registry) (methods : List (String × Method)) : Registry :=
  methods.foldl (fun r entry => (r.register entry.1 entry.2).2.1) r

theorem get?_registerAll {methods : List (String × Method)} {name : String}
    (h : ∀ entry ∈ methods, entry.1 ≠ name) (r : Registry) :
    (r.registerAll methods).methods.get? name = r.methods.get? name := by
  induction methods generalizing r with
  | nil => rfl
  | cons entry rest ih =>
      obtain ⟨hentry, hrest⟩ := List.forall_mem_cons.mp h
      have hkept : (r.methods.put entry.1 entry.2).get? name = r.methods.get? name := by
        rw [Fields.get?_put, if_neg (Ne.symm hentry)]
      exact (ih hrest _).trans hkept

theorem standard_get? (v : Verb) :
    standard.methods.get? v.name = some (Method.ofCall v.call) := by
  cases v <;> rfl

theorem call_of_get? {r : Registry} {name : String} {method : Method}
    (h : r.methods.get? name = some method) (m : Model) (arguments : List Value) :
    r.call m name arguments = method m arguments := by
  rw [call, h]

theorem call_of_unknown {r : Registry} {name : String} (h : r.has name = false) (m : Model)
    (arguments : List Value) :
    r.call m name arguments = ⟨.error (.unknownMethod name), m, []⟩ := by
  have hnone : r.methods.get? name = none :=
    Option.isNone_iff_eq_none.mp (Option.isSome_eq_false_iff.mp h)
  rw [call, hnone]

/-- **The standard methods are the edits of the model.** Whatever other methods were registered, a call
fails because of its arguments exactly if one of them is bad, with an error about the first that is, and
leaves the model alone. Otherwise it is the edit that the arguments ask for, on the document and on the
cache, and returns whether the edit was applied, or the error in the path. Arguments behind the bindings
are not looked at, and a name without a method does nothing. -/
theorem standard_methods_edit (v : Verb) (others : List (String × Method))
    (hothers : ∀ entry ∈ others, entry.1 ≠ v.name) (m : Model) (arguments : List Value) :
    let r := standard.registerAll others
    let step := r.call m v.name arguments
    ((∃ e, step.result = .error e ∧ e.isArgumentFault = true) ↔ ∃ e, v.Refuses arguments e) ∧
    (∀ e, v.Refuses arguments e → step = ⟨.error e, m, []⟩) ∧
    ((¬ ∃ e, v.Refuses arguments e) → ∃ c, v.Asks arguments c ∧
      let edited := m.edit c.path c.edit c.bindings
      step = ⟨Method.returned edited.result, edited.model, edited.events⟩) ∧
    (∀ extra, v.bindingsPosition < arguments.length →
      r.call m v.name (arguments ++ extra) = step) ∧
    ∀ unknown, r.has unknown = false →
      r.call m unknown arguments = ⟨.error (.unknownMethod unknown), m, []⟩ := by
  intro r step
  have hmethod : r.methods.get? v.name = some (Method.ofCall v.call) :=
    (get?_registerAll hothers standard).trans (standard_get? v)
  have hstep : step = Method.ofCall v.call m arguments := call_of_get? hmethod m arguments
  have hbad : ∀ e, v.Refuses arguments e → step = ⟨.error e, m, []⟩ := fun e he =>
    hstep.trans (Method.ofCall_of_error (Verb.call_of_refuses he) m)
  have hgood : ∀ c, v.Asks arguments c →
      step = ⟨Method.returned (m.edit c.path c.edit c.bindings).result,
        (m.edit c.path c.edit c.bindings).model, (m.edit c.path c.edit c.bindings).events⟩ :=
    fun c hc => hstep.trans (Method.ofCall_of_ok (Verb.call_of_asks hc) m)
  refine ⟨⟨?_, ?_⟩, hbad, ?_, ?_, fun unknown h => call_of_unknown h m arguments⟩
  · rintro ⟨e, hresult, hfault⟩
    rcases v.refuses_or_asks arguments with hrefuses | ⟨c, hc⟩
    · exact hrefuses
    · rw [hgood c hc] at hresult
      rw [Method.not_isArgumentFault_of_returned hresult] at hfault
      cases hfault
  · rintro ⟨e, he⟩
    exact ⟨e, by rw [hbad e he], he.isArgumentFault⟩
  · intro hnone
    obtain ⟨c, hc⟩ := (v.refuses_or_asks arguments).resolve_left hnone
    exact ⟨c, hc, hgood c hc⟩
  · intro extra hlength
    rw [call_of_get? hmethod, hstep, Method.ofCall, Method.ofCall, Verb.call_append hlength]

/-- Another method was taken over by the host. Bindings that are a list are refused; with null in their
place, and one argument more, the value is appended. -/
theorem standard_methods_edit_append :
    let others := [("$remove", Method.failing "$remove" "not here"), ("count", Method.argumentCount)]
    let r := standard.registerAll others
    let m := Model.ofDocument (.object [("l", .array [])])
    let bad : List Value := [.string "l", .null, .array []]
    let good : List Value := [.string "l", .null, .null]
    let e := MethodError.invalidArgument "$append" "bindings" "an object" (.array [])
    (∀ entry ∈ others, entry.1 ≠ Verb.append.name) ∧
    (Verb.append.Refuses bad e ∧ r.call m "$append" bad = ⟨.error e, m, []⟩) ∧
    ((¬ ∃ e, Verb.append.Refuses good e) ∧
      ∃ c, Verb.append.Asks good c ∧ (r.call m "$append" good).model =
        (m.edit c.path c.edit c.bindings).model) ∧
    (Verb.append.bindingsPosition < good.length ∧
      r.call m "$append" (good ++ [.boolean true]) = r.call m "$append" good) ∧
    (r.has "$pop" = false ∧ r.call m "$pop" good = ⟨.error (.unknownMethod "$pop"), m, []⟩) := by
  intro others r m bad good e
  have hothers : ∀ entry ∈ others, entry.1 ≠ Verb.append.name :=
    List.forall_mem_cons.mpr ⟨by decide, List.forall_mem_singleton.mpr (by decide)⟩
  have hpath : bad[0]? = some (.string "l") := rfl
  have hrefuses : Verb.append.Refuses bad e :=
    .badBindings hpath (fun _ => by rintro ⟨⟩) rfl (by rintro ⟨⟩) (by rintro _ ⟨⟩)
  have hasks : Verb.append.Asks good ⟨"l", .append .null, []⟩ :=
    ⟨rfl, rfl, Or.inr ⟨rfl, Or.inr rfl⟩⟩
  obtain ⟨-, hbad, -⟩ := standard_methods_edit .append others hothers m bad
  obtain ⟨-, -, hgood, hextra, hunknown⟩ := standard_methods_edit .append others hothers m good
  obtain ⟨c, hc, hstep⟩ := hgood hasks.not_refuses
  exact ⟨hothers, ⟨hrefuses, hbad e hrefuses⟩,
    ⟨hasks.not_refuses, c, hc, congrArg ModelStep.model hstep⟩,
    ⟨by decide, hextra [.boolean true] (by decide)⟩, ⟨rfl, hunknown "$pop" rfl⟩⟩

end Registry

end DocPath
