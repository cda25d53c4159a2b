import DocPath.Proofs.Model.Transparency
import Mathlib.Data.List.Basic

/-!
# What a run reports

The events of a call are those of the cache, which says when it parses a path, and those of the
edit, which reports an error if it is rejected and not otherwise. So one exchange, a call with what
came of it, is exact (`Exchange.Exact`), and in the events of a run one finds the rejections of its
calls and the misses of its cache, each once and in order (`events_of_run`).
-/

namespace DocPath

/-- What a log has of an event. -/
def Event.record (e : Event) : EventLevel × String × List (String × String) :=
  (e.level, e.message, e.details)

/-! ## Events of the cache -/

namespace PathCache

/-- A text that the cache does not hold is parsed, and that is all that the cache says. -/
theorem compile_events (c : PathCache) (source : String) :
    (c.compile source).2.2 = if c.holds source then [] else [.compilingPath source] := by
  cases hentry : c.entries.get? source with
  | some path =>
      rw [compile_of_entry hentry]
      simp [holds, Fields.has, hentry]
  | none =>
      have hnot : c.holds source = false := by simp [holds, Fields.has, hentry]
      rw [hnot, if_neg Bool.false_ne_true]
      cases hpath : CompiledPath.compile source with
      | ok path => rw [compile_of_new hentry hpath]
      | error e => rw [compile_of_error hentry hpath]

theorem filter_isError_compile (c : PathCache) (source : String) :
    (c.compile source).2.2.filter (·.isError) = [] := by
  rw [compile_events]
  split <;> rfl

theorem filter_isCompiling_compile (c : PathCache) (source : String) :
    (c.compile source).2.2.filter (·.isCompiling) =
      if c.holds source then [] else [.compilingPath source] := by
  rw [compile_events]
  split
  · rfl
  · simp [Event.isCompiling, Event.level, Event.message]

/-- The misses go up by one for a text that is not held. -/
theorem misses_compile (c : PathCache) (source : String) :
    (c.compile source).2.1.misses = c.misses + if c.holds source then 0 else 1 := by
  have hcounts := congrArg Prod.snd (c.compile_counts source)
  rw [apply_ite Prod.snd] at hcounts
  rw [show (c.compile source).2.1.misses = _ from hcounts]
  split <;> rfl

end PathCache

namespace Model

/-! ## Exchanges -/

/-- Why an edit was rejected, if the report is of one that was. -/
def Report.error? : Report → Option StructuralError
  | .edited (.ok outcome) => outcome.error?
  | .resolved _ | .found _ | .edited (.error _) => none

/-- Why a path was not parsed. -/
def Report.syntaxError? : Report → Option SyntaxError
  | .resolved (.error e) | .found (.error e) | .edited (.error e) => some e
  | .resolved (.ok _) | .found (.ok _) | .edited (.ok _) => none

/-- A call, what it returned, whether the cache counted a miss, and the events. -/
structure Exchange where
  call : Call
  report : Report
  missed : Bool
  events : List Event

def exchange (m : Model) (c : Call) : ModelStep Exchange :=
  let step := m.call c
  ⟨⟨c, step.result, m.cache.misses < step.model.cache.misses, step.events⟩, step.model,
    step.events⟩

/-- **What the events of an exchange say.** There is an error event if an edit was rejected, with
the error that was returned, which names the path as it was given; a path is parsed if the cache
missed it, and it missed every path that was not parsed with success. -/
structure Exchange.Exact (x : Exchange) : Prop where
  errors : x.events.filter (·.isError) = (x.report.error?.map Event.editRejected).toList
  error_path : ∀ error, x.report.error? = some error → error.path = x.call.path
  compiling : x.events.filter (·.isCompiling) =
    if x.missed then [.compilingPath x.call.path] else []
  missed_of_refused : ∀ e, x.report.syntaxError? = some e → x.missed = true

variable {m : Model}

theorem exchange_missed (m : Model) (c : Call) :
    (m.exchange c).result.missed = !m.cache.holds c.path := by
  show decide (m.cache.misses < (m.call c).model.cache.misses) = _
  rw [call_cache, PathCache.misses_compile]
  cases m.cache.holds c.path <;> simp

theorem exchange_misses (m : Model) (c : Call) :
    (m.exchange c).model.cache.misses =
      m.cache.misses + if (m.exchange c).result.missed then 1 else 0 := by
  rw [exchange_missed]
  show (m.call c).model.cache.misses = _
  rw [call_cache, PathCache.misses_compile]
  cases m.cache.holds c.path <;> rfl

/-- A call that returns a syntax error got it from the text of its path. -/
theorem compile_of_refused (h : m.cache.Sound) (c : Call) {error : SyntaxError}
    (herror : (m.call c).result.syntaxError? = some error) :
    CompiledPath.compile c.path = .error error := by
  have hreply := (call_reply h c).1
  cases c with
  | lookup path bindings | get path bindings | edit path e bindings =>
      cases hpath : CompiledPath.compile path with
      | ok compiled =>
          simp only [Call.reply, hpath, Except.map, Option.some.injEq] at hreply
          rw [hreply] at herror
          cases herror
      | error found =>
          simp only [Call.reply, hpath, Except.map, Option.some.injEq] at hreply
          rw [hreply] at herror
          rw [← Option.some.inj herror]
          exact hpath

/-- The events of a call are those of the cache and then its own, which are to be looked at. -/
theorem exact_of_events (h : m.cache.Sound) {c : Call} (own : List Event)
    (hevents : (m.call c).events = (m.cache.compile c.path).2.2 ++ own)
    (herrors : own.filter (·.isError) =
      ((m.call c).result.error?.map Event.editRejected).toList)
    (hpath : ∀ error, (m.call c).result.error? = some error → error.path = c.path)
    (hcompiling : own.filter (·.isCompiling) = []) : (m.exchange c).result.Exact := by
  have hmissed := m.exchange_missed c
  constructor
  case errors =>
    show (m.call c).events.filter _ = _
    rw [hevents, List.filter_append, PathCache.filter_isError_compile, herrors]
    rfl
  case error_path => exact hpath
  case compiling =>
    show (m.call c).events.filter _ = _
    rw [hevents, List.filter_append, PathCache.filter_isCompiling_compile, hcompiling, hmissed,
      List.append_nil]
    show _ = if (!m.cache.holds c.path) = true then [Event.compilingPath c.path] else []
    cases m.cache.holds c.path <;> rfl
  case missed_of_refused =>
    intro error herror
    rw [hmissed, (h.entries_of_refused (compile_of_refused h c herror)).1]
    rfl

/-- A call that edits nothing has no events of its own. -/
theorem exact_of_silent (h : m.cache.Sound) {c : Call}
    (hevents : (m.call c).events = (m.cache.compile c.path).2.2)
    (hnone : (m.call c).result.error? = none) : (m.exchange c).result.Exact := by
  refine exact_of_events h [] ?_ ?_ ?_ rfl
  · rw [hevents, List.append_nil]
  · rw [hnone]
    rfl
  · rw [hnone]
    exact nofun

theorem exchange_exact (h : m.cache.Sound) (c : Call) : (m.exchange c).result.Exact := by
  cases c with
  | lookup path bindings => exact exact_of_silent h (by simp only [call, lookup_eq h]; rfl) rfl
  | get path bindings => exact exact_of_silent h (by simp only [call, get, lookup_eq h]; rfl) rfl
  | edit path e bindings =>
      cases hpath : CompiledPath.compile path with
      | error error =>
          have hedit := edit_of_refused h hpath e bindings
          refine exact_of_silent h ?_ ?_
          · simp only [call, hedit, Call.path]
          · simp only [call, hedit, Report.error?]
      | ok compiled =>
          have hedit := edit_of_compiled h hpath e bindings
          have hends := e.apply_ends m.document compiled (.outermost bindings)
          refine exact_of_events h (e.apply m.document compiled (.outermost bindings)).events
            ?_ ?_ ?_ hends.filter_isCompiling
          · simp only [call, hedit, Call.path]
          · simp only [call, hedit, Report.error?]
            exact hends.errors
          · intro error herror
            simp only [call, hedit, Report.error?] at herror
            rw [hends.error_path herror]
            exact (CompiledPath.compile_eq_ok_iff.mp hpath).1

theorem exchange_sound (h : m.cache.Sound) (c : Call) : (m.exchange c).model.cache.Sound := by
  show (m.call c).model.cache.Sound
  rw [call_cache]
  exact h.compile c.path

/-! ## Runs -/

/-- A run is its exchanges, one for each call, and its events are theirs. -/
theorem run_exchange (m : Model) (calls : List Call) :
    (run exchange m calls).result.map (·.call) = calls ∧
      (run exchange m calls).events = (run exchange m calls).result.flatMap (·.events) := by
  induction calls generalizing m with
  | nil => exact ⟨rfl, rfl⟩
  | cons c rest ih =>
      obtain ⟨hcalls, hevents⟩ := ih (m.exchange c).model
      constructor
      · show c :: (run exchange (m.exchange c).model rest).result.map (·.call) = c :: rest
        rw [hcalls]
      · show (m.exchange c).events ++ (run exchange (m.exchange c).model rest).events = _
        rw [hevents]
        rfl

theorem run_exact (h : m.cache.Sound) (calls : List Call) :
    ∀ x ∈ (run exchange m calls).result, x.Exact := by
  induction calls generalizing m with
  | nil => exact List.forall_mem_nil _
  | cons c rest ih =>
      intro x hx
      rcases List.mem_cons.mp hx with rfl | hlater
      · exact exchange_exact h c
      · exact ih (exchange_sound h c) x hlater

theorem run_misses (m : Model) (calls : List Call) :
    (run exchange m calls).model.cache.misses =
      m.cache.misses + (run exchange m calls).result.countP (·.missed) := by
  induction calls generalizing m with
  | nil => rfl
  | cons c rest ih =>
      show (run exchange (m.exchange c).model rest).model.cache.misses =
        m.cache.misses + ((m.exchange c).result :: _).countP (·.missed)
      rw [ih, exchange_misses, List.countP_cons]
      omega

/-- The error events of exact exchanges are their rejections. -/
theorem filter_isError_flatMap {exchanges : List Exchange} (h : ∀ x ∈ exchanges, x.Exact) :
    (exchanges.flatMap (·.events)).filter (·.isError) =
      exchanges.filterMap fun x => x.report.error?.map Event.editRejected := by
  rw [List.filter_flatMap, List.filterMap_eq_flatMap_toList]
  exact List.flatMap_congr fun x hx => (h x hx).errors

/-- Among the events of exact exchanges, a path is parsed where the cache missed it. -/
theorem filter_isCompiling_flatMap {exchanges : List Exchange} (h : ∀ x ∈ exchanges, x.Exact) :
    (exchanges.flatMap (·.events)).filter (·.isCompiling) =
      (exchanges.filter (·.missed)).map fun x => .compilingPath x.call.path := by
  induction exchanges with
  | nil => rfl
  | cons x rest ih =>
      obtain ⟨hfirst, hrest⟩ := List.forall_mem_cons.mp h
      rw [List.flatMap_cons, List.filter_append, hfirst.compiling, ih hrest, List.filter_cons]
      split <;> rfl

/-- **The error events are the rejections.** In the events of a run there is one error event for
each call that returned a rejection, in order, with the kind and the message of the error that it
returned and with the text of its path, and no other call has one among its events. In the same
way a path is parsed once for each miss of the cache; a path that fails to parse is always missed. -/
theorem events_of_run (h : m.cache.Reachable) (calls : List Call) :
    let ran := run exchange m calls
    ran.result.map (·.call) = calls ∧
    ran.events = ran.result.flatMap (·.events) ∧
    (∀ x ∈ ran.result, x.Exact) ∧
    (ran.events.filter (·.isError)).map Event.record =
      ran.result.filterMap (fun x => x.report.error?.map fun error =>
        (.error, error.message, [("kind", error.kind), ("path", x.call.path)])) ∧
    (ran.events.filter (·.isCompiling)).map Event.record =
      (ran.result.filter (·.missed)).map
        (fun x => (.debug, "compiling path", [("path", x.call.path)])) ∧
    ran.model.cache.misses = m.cache.misses + ran.result.countP (·.missed) := by
  intro ran
  have hexact : ∀ x ∈ ran.result, x.Exact := run_exact h.sound calls
  obtain ⟨hcalls, hevents⟩ := run_exchange m calls
  refine ⟨hcalls, hevents, hexact, ?_, ?_, run_misses m calls⟩
  · have herrors := filter_isError_flatMap hexact
    rw [← hevents] at herrors
    rw [herrors, List.map_filterMap]
    refine List.filterMap_congr fun x hx => ?_
    cases herror : x.report.error? with
    | none => rfl
    | some error =>
        rw [← (hexact x hx).error_path error herror]
        rfl
  · have hcompiling := filter_isCompiling_flatMap hexact
    rw [← hevents] at hcompiling
    rw [hcompiling, List.map_map]
    rfl

/-- Two rejections among five calls, a path that fails to parse, and one path that is found again. -/
theorem events_of_run_rejections :
    let m := ofDocument (.object [("l", .array []), ("n", .integer 5)])
    let calls : List Call := [.get "l" [], .edit "l.k" (.add .null) [], .edit "a[" .remove [],
      .edit "n.k" (.setField .null) [], .edit "n.k" .remove []]
    let ran := run exchange m calls
    (m.cache.Reachable ∧ ran.result.map (·.missed) = [true, true, true, true, false]) ∧
    (ran.events.filter (·.isError)).map Event.record =
      [(.error, "can't add field \"k\" to list at 'l.k'",
          [("kind", "add_to_list"), ("path", "l.k")]),
        (.error, "can't set field \"k\" on integer at 'n.k'",
          [("kind", "not_a_container"), ("path", "n.k")])] ∧
    (ran.events.filter (·.isCompiling)).map Event.record =
      ["l", "l.k", "a[", "n.k"].map fun path => (.debug, "compiling path", [("path", path)]) := by
  intro m calls ran
  have hm : m.cache.Reachable := .empty
  obtain ⟨-, -, -, herrors, hcompiling, -⟩ := events_of_run hm calls
  refine ⟨⟨hm, by decide +kernel⟩, ?_, ?_⟩
  · rw [herrors]
    decide +kernel
  · rw [hcompiling]
    decide +kernel

end Model

end DocPath
