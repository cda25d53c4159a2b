import DocPath.Proofs.Cache
import DocPath.Proofs.Model.Run

/-!
# Replies do not depend on the cache

What a model replies is a matter of its document and of what it is asked (`Request.reply`): each
call compiles its path anew, and its scope holds its own bindings and nothing else. A model looks
into its cache first, but whatever the history of the cache (`PathCache.Reachable`), every entry is
what its text compiles to, so a call finds there what it would have compiled. Two models with equal
documents go side by side through any requests, one hitting where the other parses
(`replies_ignore_cache`).
-/

namespace DocPath

namespace Model

/-! ## One call -/

/-- The text of the path that a call is about. -/
def Call.path : Call → String
  | .lookup path _ | .get path _ | .edit path _ _ => path

theorem lookup_cache (m : Model) (path : String) (bindings : Bindings) :
    (m.lookup path bindings).model.cache = (m.cache.compile path).2.1 := by
  unfold lookup
  rcases m.cache.compile path with ⟨_ | _, cache, events⟩ <;> rfl

theorem edit_cache (m : Model) (path : String) (e : Edit) (bindings : Bindings) :
    (m.edit path e bindings).model.cache = (m.cache.compile path).2.1 := by
  unfold edit
  rcases m.cache.compile path with ⟨_ | _, cache, events⟩ <;> rfl

/-- A call does to the cache what compiling its path does. -/
theorem call_cache (m : Model) (c : Call) :
    (m.call c).model.cache = (m.cache.compile c.path).2.1 := by
  cases c with
  | lookup path bindings => exact m.lookup_cache path bindings
  | get path bindings => exact m.lookup_cache path bindings
  | edit path e bindings => exact m.edit_cache path e bindings

variable {m : Model}

theorem lookup_eq (h : m.cache.Sound) (path : String) (bindings : Bindings) :
    m.lookup path bindings =
      ⟨(CompiledPath.compile path).map (·.resolve (.outermost bindings) m.document),
        { m with cache := (m.cache.compile path).2.1 }, (m.cache.compile path).2.2⟩ := by
  rw [← h.compile_result path]
  unfold lookup
  rcases m.cache.compile path with ⟨_ | _, cache, events⟩ <;> rfl

theorem edit_of_compiled (h : m.cache.Sound) {path : String} {compiled : CompiledPath}
    (hpath : CompiledPath.compile path = .ok compiled) (e : Edit) (bindings : Bindings) :
    m.edit path e bindings =
      let edited := e.apply m.document compiled (.outermost bindings)
      ⟨.ok edited.outcome, ⟨edited.document, (m.cache.compile path).2.1⟩,
        (m.cache.compile path).2.2 ++ edited.events⟩ := by
  rw [← h.compile_result path] at hpath
  unfold edit
  rcases hcompile : m.cache.compile path with ⟨result, cache, events⟩
  rw [hcompile] at hpath
  obtain rfl : result = .ok compiled := hpath
  rfl

theorem edit_of_refused (h : m.cache.Sound) {path : String} {error : SyntaxError}
    (hpath : CompiledPath.compile path = .error error) (e : Edit) (bindings : Bindings) :
    m.edit path e bindings =
      ⟨.error error, { m with cache := (m.cache.compile path).2.1 },
        (m.cache.compile path).2.2⟩ := by
  rw [← h.compile_result path] at hpath
  unfold edit
  rcases hcompile : m.cache.compile path with ⟨result, cache, events⟩
  rw [hcompile] at hpath
  obtain rfl : result = .error error := hpath
  rfl

end Model

/-! ## The histories of a cache -/

/-- The caches that there can be: a new one, and what is left of one after a text was compiled,
parsed or not, after it was cleared, and after it was given to a model of some document and the
model was called. -/
inductive PathCache.Reachable : PathCache → Prop where
  | empty : Reachable .empty
  | compile {c : PathCache} (h : Reachable c) (source : String) : Reachable (c.compile source).2.1
  | clear {c : PathCache} (h : Reachable c) : Reachable c.clear
  | call {c : PathCache} (h : Reachable c) (document : Value) (call : Model.Call) :
      Reachable (Model.call ⟨document, c⟩ call).model.cache

theorem PathCache.Reachable.sound {c : PathCache} (h : c.Reachable) : c.Sound := by
  induction h with
  | empty => exact sound_empty
  | compile _ source ih => exact ih.compile source
  | clear _ _ => exact sound_empty
  | @call c _ document call ih =>
      rw [Model.call_cache]
      exact ih.compile call.path

namespace Model

/-! ## Requests and replies -/

/-- What can happen to a model: it is called, or its document is replaced. -/
inductive Request where
  | call (c : Call)
  | replace (document : Value)

/-- What a call returned, and the document after it. A replacement returns nothing. -/
structure Reply where
  report : Option Report
  document : Value

def serve (m : Model) : Request → ModelStep Reply
  | .call c =>
    let step := m.call c
    ⟨⟨some step.result, step.model.document⟩, step.model, step.events⟩
  | .replace document => ⟨⟨none, document⟩, { m with document }, []⟩

/-- The reply to a call from the document alone. -/
def Call.reply (document : Value) : Call → Reply
  | .lookup path bindings =>
    ⟨some (.resolved ((CompiledPath.compile path).map (·.resolve (.outermost bindings) document))),
      document⟩
  | .get path bindings =>
    ⟨some (.found ((CompiledPath.compile path).map
      fun compiled => (compiled.resolve (.outermost bindings) document).node)), document⟩
  | .edit path e bindings =>
    match CompiledPath.compile path with
    | .ok compiled =>
      let edited := e.apply document compiled (.outermost bindings)
      ⟨some (.edited (.ok edited.outcome)), edited.document⟩
    | .error error => ⟨some (.edited (.error error)), document⟩

def Request.reply (document : Value) : Request → Reply
  | .call c => c.reply document
  | .replace document => ⟨none, document⟩

/-- The replies to requests one after the other, each from the document that the one before it
left. -/
def replies (document : Value) : List Request → List Reply
  | [] => []
  | request :: rest =>
    let reply := request.reply document
    reply :: replies reply.document rest

/-- The document after all of the requests. -/
def finalDocument (document : Value) (requests : List Request) : Value :=
  requests.foldl (fun document request => (request.reply document).document) document

/-! ## One request -/

variable {m m' : Model}

theorem call_reply (h : m.cache.Sound) (c : Call) :
    some (m.call c).result = (c.reply m.document).report ∧
      (m.call c).model.document = (c.reply m.document).document := by
  cases c with
  | lookup path bindings =>
      have hlookup := lookup_eq h path bindings
      simp only [call, Call.reply, hlookup, and_self]
  | get path bindings =>
      have hlookup := lookup_eq h path bindings
      simp only [call, Call.reply, get, hlookup, and_true]
      cases CompiledPath.compile path <;> rfl
  | edit path e bindings =>
      cases hpath : CompiledPath.compile path with
      | ok compiled => simp only [call, Call.reply, edit_of_compiled h hpath, hpath, and_self]
      | error error => simp only [call, Call.reply, edit_of_refused h hpath, hpath, and_self]

theorem serve_reply (h : m.cache.Sound) (request : Request) :
    (m.serve request).result = request.reply m.document ∧
      (m.serve request).model.document = (request.reply m.document).document := by
  cases request with
  | call c =>
      obtain ⟨hreport, hdocument⟩ := call_reply h c
      exact ⟨congrArg₂ Reply.mk hreport hdocument, hdocument⟩
  | replace document => exact ⟨rfl, rfl⟩

theorem serve_reachable (h : m.cache.Reachable) (request : Request) :
    (m.serve request).model.cache.Reachable := by
  cases request with
  | call c => exact .call h m.document c
  | replace document => exact h

/-! ## Sequences of requests -/

/-- A model whose cache has any history replies from its document alone, and leaves a cache with
a history. -/
theorem run_serve (h : m.cache.Reachable) (requests : List Request) :
    (run serve m requests).result = replies m.document requests ∧
      (run serve m requests).model.document = finalDocument m.document requests ∧
      (run serve m requests).model.cache.Reachable := by
  induction requests generalizing m with
  | nil => exact ⟨rfl, rfl, h⟩
  | cons request rest ih =>
      obtain ⟨hresult, hdocument⟩ := serve_reply h.sound request
      obtain ⟨hlater, hfinal, hreachable⟩ := ih (serve_reachable h request)
      rw [hdocument] at hlater hfinal
      refine ⟨?_, hfinal, hreachable⟩
      show (m.serve request).result :: (run serve (m.serve request).model rest).result = _
      rw [hresult, hlater]
      rfl

/-- **The cache never influences a reply.** Two models with equal documents and caches of any
history reply alike to any requests, with equal documents after each of them: they reply as their
document alone does, in scopes that hold the bindings of the one call. So nothing of what was asked
before, by whatever bindings, is seen later except in the document that it left. -/
theorem replies_ignore_cache (hm : m.cache.Reachable) (hm' : m'.cache.Reachable)
    (hdocument : m.document = m'.document) (requests : List Request) :
    let ran := run serve m requests
    let ran' := run serve m' requests
    ran.result = ran'.result ∧ ran.model.document = ran'.model.document ∧
    ran.result = replies m.document requests ∧
    ∀ before before' : List Request,
      let left := (run serve m before).model
      let left' := (run serve m' before').model
      left.document = left'.document →
        (run serve left requests).result = (run serve left' requests).result := by
  intro ran ran'
  obtain ⟨hresult, hfinal, _⟩ := run_serve hm requests
  obtain ⟨hresult', hfinal', _⟩ := run_serve hm' requests
  rw [← hdocument] at hresult' hfinal'
  refine ⟨hresult.trans hresult'.symm, hfinal.trans hfinal'.symm, hresult, ?_⟩
  intro before before' left left' hleft
  have hreachable : left.cache.Reachable := (run_serve hm before).2.2
  have hreachable' : left'.cache.Reachable := (run_serve hm' before').2.2
  rw [(run_serve hreachable requests).1, (run_serve hreachable' requests).1, hleft]

/-- A model that was given the cache of another one, which had bound the variable to something
else, and a model with a new cache: the first finds the path that the second parses. -/
theorem replies_ignore_cache_handed_over :
    let lent := (Model.call ⟨.null, PathCache.empty.clear⟩
      (.get "a[$i]" [("i", .integer 7)])).model.cache
    let document : Value := .object [("a", .array [.integer 1, .integer 2])]
    let m : Model := ⟨document, (lent.compile "a[").2.1⟩
    let m' := ofDocument document
    let requests : List Request := [.call (.edit "a[$i]" .remove [("i", .integer 0)]),
      .call (.lookup "a[$i]" []), .call (.get "a[" []), .replace .null]
    (m.cache.holds "a[$i]" = true ∧ m'.cache.holds "a[$i]" = false) ∧
    (m.cache.Reachable ∧ m'.cache.Reachable ∧ m.document = m'.document) ∧
    (run serve m requests).result = (run serve m' requests).result := by
  intro lent document m m' requests
  have hlent : lent.Reachable := .call (.clear .empty) .null _
  have hm : m.cache.Reachable := .compile hlent "a["
  have hm' : m'.cache.Reachable := .empty
  refine ⟨⟨by decide +kernel, rfl⟩, ⟨hm, hm', rfl⟩, ?_⟩
  exact (replies_ignore_cache hm hm' rfl requests).1

end Model

end DocPath
