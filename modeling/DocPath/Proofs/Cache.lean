import DocPath.Cache
import Mathlib.Data.List.Dedup

/-!
# The cache as a memo table

A cache is looked at after any sequence of compilations and clears, next to a log of what was
compiled since the last clear and what came of it (`CacheSession`). Every entry is what its text
compiles to and no text has two entries (`PathCache.Sound`); that alone makes each answer the
one a fresh compilation gives. How the entries and the counters follow from the log is
`CacheSession.Exact`, which every call preserves.
-/

namespace DocPath

/-! ## One compilation -/

namespace CompiledPath

theorem compile_of_parse {source : String} {path : Path} (h : Path.parse source = .ok path) :
    compile source = .ok ⟨source, path⟩ := by
  unfold compile
  rw [h]
  rfl

theorem compile_of_parse_error {source : String} {e : SyntaxError}
    (h : Path.parse source = .error e) : compile source = .error e := by
  unfold compile
  rw [h]
  rfl

theorem compile_eq_ok_iff {source : String} {path : CompiledPath} :
    compile source = .ok path ↔ path.source = source ∧ Path.parse source = .ok path.path := by
  cases hparse : Path.parse source with
  | error e => simp [compile_of_parse_error hparse]
  | ok steps =>
      rw [compile_of_parse hparse, Except.ok.injEq, Except.ok.injEq]
      constructor
      · rintro rfl
        exact ⟨rfl, rfl⟩
      · rintro ⟨rfl, rfl⟩
        rfl

theorem compile_eq_error_iff {source : String} {e : SyntaxError} :
    compile source = .error e ↔ Path.parse source = .error e := by
  cases hparse : Path.parse source with
  | error e => rw [compile_of_parse_error hparse, Except.error.injEq, Except.error.injEq]
  | ok steps => simp [compile_of_parse hparse]

end CompiledPath

namespace PathCache

variable {c : PathCache} {source : String}

theorem compile_of_entry {path : CompiledPath} (h : c.entries.get? source = some path) :
    c.compile source = (.ok path, { c with hits := c.hits + 1 }, []) := by
  unfold compile
  rw [h]

theorem compile_of_new {path : CompiledPath} (h : c.entries.get? source = none)
    (hpath : CompiledPath.compile source = .ok path) :
    c.compile source = (.ok path, ⟨c.entries.put source path, c.hits, c.misses + 1⟩,
      [.compilingPath source]) := by
  unfold compile
  simp only [h, hpath]

theorem compile_of_error {e : SyntaxError} (h : c.entries.get? source = none)
    (he : CompiledPath.compile source = .error e) :
    c.compile source = (.error e, ⟨c.entries, c.hits, c.misses + 1⟩,
      [.compilingPath source]) := by
  unfold compile
  simp only [h, he]

/-- Entries are what their texts compile to, and no text has two. -/
structure Sound (c : PathCache) : Prop where
  fresh : ∀ source path, c.entries.get? source = some path →
    CompiledPath.compile source = .ok path
  nodup : c.entries.names.Nodup

theorem sound_empty : empty.Sound :=
  ⟨nofun, List.nodup_nil⟩

/-- The three ways a compilation can go: found, parsed and remembered, or refused. -/
inductive Compiles (c : PathCache) (source : String) : Prop where
  | found {path : CompiledPath} (hentry : c.entries.get? source = some path)
      (hpath : CompiledPath.compile source = .ok path)
  | parsed {path : CompiledPath} (hentry : c.entries.get? source = none)
      (hpath : CompiledPath.compile source = .ok path)
  | refused {e : SyntaxError} (hentry : c.entries.get? source = none)
      (he : CompiledPath.compile source = .error e)

theorem Sound.compiles (h : c.Sound) (source : String) : c.Compiles source := by
  cases hentry : c.entries.get? source with
  | some path => exact .found hentry (h.fresh source path hentry)
  | none =>
      cases hpath : CompiledPath.compile source with
      | ok path => exact .parsed hentry hpath
      | error e => exact .refused hentry hpath

theorem Sound.compile (h : c.Sound) (source : String) : (c.compile source).2.1.Sound := by
  rcases h.compiles source with ⟨hentry, _⟩ | ⟨hentry, hpath⟩ | ⟨hentry, he⟩
  · rw [compile_of_entry hentry]
    exact ⟨h.fresh, h.nodup⟩
  · rw [compile_of_new hentry hpath]
    constructor
    · intro other path hother
      rw [Fields.get?_put] at hother
      split at hother
      · rename_i heq
        rw [heq, hpath]
        exact congrArg Except.ok (Option.some.inj hother)
      · exact h.fresh other path hother
    · rw [(Fields.names_put_perm hentry _).nodup_iff, List.nodup_cons]
      refine ⟨?_, h.nodup⟩
      rw [← Fields.has_iff_mem_names, Fields.has, hentry]
      exact Bool.false_ne_true
  · rw [compile_of_error hentry he]
    exact ⟨h.fresh, h.nodup⟩

/-- A sound cache answers as if there were none. -/
theorem Sound.compile_result (h : c.Sound) (source : String) :
    (c.compile source).1 = CompiledPath.compile source := by
  rcases h.compiles source with ⟨hentry, hpath⟩ | ⟨hentry, hpath⟩ | ⟨hentry, he⟩
  · rw [compile_of_entry hentry, hpath]
  · rw [compile_of_new hentry hpath, hpath]
  · rw [compile_of_error hentry he, he]

/-- After a compilation the cache holds what it held before, and the text if it was parsed. -/
theorem Sound.holds_compile (h : c.Sound) (source other : String) :
    (c.compile source).2.1.holds other = true ↔
      c.holds other = true ∨ other = source ∧ ∃ path, CompiledPath.compile source = .ok path := by
  rcases h.compiles source with ⟨hentry, hpath⟩ | ⟨hentry, hpath⟩ | ⟨hentry, he⟩
  · rw [compile_of_entry hentry]
    have hheld : c.holds source = true := by simp [holds, Fields.has, hentry]
    constructor
    · exact Or.inl
    · rintro (hother | ⟨rfl, _⟩)
      · exact hother
      · exact hheld
  · rw [compile_of_new hentry hpath]
    by_cases hother : other = source
    · simp [holds, Fields.has, Fields.get?_put, hother, hpath]
    · simp [holds, Fields.has, Fields.get?_put, hother]
  · rw [compile_of_error hentry he]
    simp [holds, he]

/-- A compilation is a hit exactly if its text was held before. -/
theorem compile_counts (c : PathCache) (source : String) :
    ((c.compile source).2.1.hits, (c.compile source).2.1.misses) =
      if c.holds source then (c.hits + 1, c.misses) else (c.hits, c.misses + 1) := by
  cases hentry : c.entries.get? source with
  | some path =>
      rw [compile_of_entry hentry]
      simp [holds, Fields.has, hentry]
  | none =>
      have hnot : c.holds source = false := by simp [holds, Fields.has, hentry]
      rw [hnot, if_neg Bool.false_ne_true]
      cases hpath : CompiledPath.compile source with
      | ok path => rw [compile_of_new hentry hpath]
      | error e => rw [compile_of_error hentry hpath]

/-- A text that is parsed is a miss as often as it makes an entry. -/
theorem misses_of_parsed {path : CompiledPath} (hpath : CompiledPath.compile source = .ok path) :
    (c.compile source).2.1.misses + c.size = c.misses + (c.compile source).2.1.size := by
  cases hentry : c.entries.get? source with
  | some path => rw [compile_of_entry hentry, size, size]
  | none =>
      have hlength : (c.entries.put source path).length = c.entries.length + 1 := by
        have hperm := (Fields.names_put_perm hentry path).length_eq
        simpa [Fields.names] using hperm
      rw [compile_of_new hentry hpath]
      show c.misses + 1 + c.entries.length = c.misses + (c.entries.put source path).length
      rw [hlength]
      omega

/-- A text that is refused is not held, and leaves no entry. -/
theorem Sound.entries_of_refused (h : c.Sound) {source : String} {e : SyntaxError}
    (he : CompiledPath.compile source = .error e) :
    c.holds source = false ∧ (c.compile source).2.1.entries = c.entries := by
  rcases h.compiles source with ⟨hentry, hpath⟩ | ⟨hentry, hpath⟩ | ⟨hentry, _⟩
  · rw [hpath] at he
    cases he
  · rw [hpath] at he
    cases he
  · rw [compile_of_error hentry he]
    exact ⟨by simp [holds, Fields.has, hentry], rfl⟩

end PathCache

/-! ## Sequences of calls -/

namespace PathCache

/-- What a cache can be asked for. -/
inductive Call where
  | compile (source : String)
  | clear

/-- The text of a compilation, and what it gave. -/
structure Answer where
  source : String
  result : Except SyntaxError CompiledPath

def Answer.succeeded (a : Answer) : Bool :=
  match a.result with
  | .ok _ => true
  | .error _ => false

end PathCache

/-- A cache, and the compilations since it was last cleared, the latest one last. -/
structure CacheSession where
  cache : PathCache
  log : List PathCache.Answer

namespace CacheSession

open PathCache (Call Answer)

def start : CacheSession :=
  ⟨.empty, []⟩

def step (s : CacheSession) : Call → CacheSession
  | .compile source =>
    let (result, cache, _) := s.cache.compile source
    ⟨cache, s.log ++ [⟨source, result⟩]⟩
  | .clear => ⟨s.cache.clear, []⟩

def after (calls : List Call) : CacheSession :=
  calls.foldl step start

/-- The texts that were parsed, as often as they were asked for. -/
def parsed (s : CacheSession) : List String :=
  (s.log.filter (·.succeeded)).map (·.source)

/-- The compilations that gave an error. -/
def refused (s : CacheSession) : List Answer :=
  s.log.filter (!·.succeeded)

/-- **The invariant of a session.** The cache holds what the log says, and it has missed each of
its texts once and each refused one every time. -/
structure Exact (s : CacheSession) : Prop where
  sound : s.cache.Sound
  fresh : ∀ a ∈ s.log, a.result = CompiledPath.compile a.source
  holds_iff : ∀ source, s.cache.holds source = true ↔ ∃ path, ⟨source, .ok path⟩ ∈ s.log
  calls : s.cache.hits + s.cache.misses = s.log.length
  misses : s.cache.misses = s.cache.size + s.refused.length

theorem exact_start : start.Exact := by
  refine ⟨PathCache.sound_empty, ?_, ?_, rfl, rfl⟩
  · intro a ha
    cases ha
  · intro source
    constructor
    · intro h
      cases h
    · rintro ⟨path, h⟩
      cases h

/-- The log after a compilation. -/
theorem Exact.log_step {s : CacheSession} (h : s.Exact) (source : String) :
    (s.step (.compile source)).log = s.log ++ [⟨source, CompiledPath.compile source⟩] := by
  rw [← h.sound.compile_result source]
  rfl

theorem Exact.step {s : CacheSession} (h : s.Exact) (call : Call) : (s.step call).Exact := by
  cases call with
  | clear => exact exact_start
  | compile source =>
      have hlog := h.log_step source
      constructor
      case sound => exact h.sound.compile source
      case fresh =>
        intro a ha
        rw [hlog] at ha
        rcases List.mem_append.mp ha with hbefore | hlast
        · exact h.fresh a hbefore
        · obtain rfl := List.mem_singleton.mp hlast
          rfl
      case holds_iff =>
        intro other
        refine (h.sound.holds_compile source other).trans ?_
        rw [h.holds_iff, hlog]
        constructor
        · rintro (⟨path, hbefore⟩ | ⟨rfl, path, hpath⟩)
          · exact ⟨path, List.mem_append_left _ hbefore⟩
          · rw [hpath]
            exact ⟨path, List.mem_append_right _ (List.mem_singleton_self _)⟩
        · rintro ⟨path, hmem⟩
          rcases List.mem_append.mp hmem with hbefore | hlast
          · exact Or.inl ⟨path, hbefore⟩
          · obtain ⟨rfl, hpath⟩ := Answer.mk.inj (List.mem_singleton.mp hlast)
            exact Or.inr ⟨rfl, path, hpath.symm⟩
      case calls =>
        have hcounts := s.cache.compile_counts source
        rw [hlog, List.length_append, List.length_singleton, ← h.calls]
        show (s.cache.compile source).2.1.hits + (s.cache.compile source).2.1.misses = _
        split at hcounts
        · obtain ⟨hhits, hmisses⟩ := Prod.mk.inj hcounts
          omega
        · obtain ⟨hhits, hmisses⟩ := Prod.mk.inj hcounts
          omega
      case misses =>
        have hbefore := h.misses
        show (s.cache.compile source).2.1.misses = (s.cache.compile source).2.1.size + _
        rw [refused, hlog, List.filter_append, List.length_append]
        cases hresult : CompiledPath.compile source with
        | ok path =>
            have hmisses := PathCache.misses_of_parsed (c := s.cache) hresult
            show _ = _ + (s.refused.length + 0)
            omega
        | error e =>
            obtain ⟨hnot, hentries⟩ := h.sound.entries_of_refused hresult
            have hsize : (s.cache.compile source).2.1.size = s.cache.size :=
              congrArg List.length hentries
            have hcounts := s.cache.compile_counts source
            rw [hnot, if_neg Bool.false_ne_true] at hcounts
            obtain ⟨_, hmisses⟩ := Prod.mk.inj hcounts
            show _ = _ + (s.refused.length + 1)
            omega

theorem exact_after (calls : List Call) : (after calls).Exact := by
  suffices hrun : ∀ s : CacheSession, s.Exact → (calls.foldl CacheSession.step s).Exact from
    hrun start exact_start
  induction calls with
  | nil => exact fun s h => h
  | cons call rest ih =>
      intro s h
      exact ih (s.step call) (h.step call)

theorem length_log_after (calls : List Call) : (after calls).log.length ≤ calls.length := by
  suffices hrun : ∀ s : CacheSession,
      (calls.foldl CacheSession.step s).log.length ≤ s.log.length + calls.length from
    Nat.le_trans (hrun start) (Nat.le_of_eq (Nat.zero_add _))
  induction calls with
  | nil => exact fun s => Nat.le_refl _
  | cons call rest ih =>
      intro s
      refine Nat.le_trans (ih (s.step call)) ?_
      cases call with
      | compile source =>
          show (s.log ++ [_]).length + rest.length ≤ _
          rw [List.length_append, List.length_singleton, List.length_cons]
          omega
      | clear =>
          show 0 + rest.length ≤ _
          rw [List.length_cons]
          omega

theorem mem_parsed_iff {s : CacheSession} {source : String} :
    source ∈ s.parsed ↔ ∃ path, ⟨source, .ok path⟩ ∈ s.log := by
  unfold parsed
  rw [List.mem_map]
  constructor
  · rintro ⟨⟨_, result⟩, hmem, rfl⟩
    obtain ⟨hlog, hsucceeded⟩ := List.mem_filter.mp hmem
    cases result with
    | ok path => exact ⟨path, hlog⟩
    | error e => cases hsucceeded
  · rintro ⟨path, hlog⟩
    exact ⟨_, List.mem_filter.mpr ⟨hlog, rfl⟩, rfl⟩

/-- The entries are as many as different texts were parsed. -/
theorem Exact.size_eq {s : CacheSession} (h : s.Exact) :
    s.cache.size = s.parsed.dedup.length := by
  have hperm : s.cache.entries.names.Perm s.parsed.dedup := by
    rw [List.perm_ext_iff_of_nodup h.sound.nodup (List.nodup_dedup _)]
    intro source
    rw [← Fields.has_iff_mem_names, List.mem_dedup, mem_parsed_iff]
    exact h.holds_iff source
  rw [← hperm.length_eq]
  exact (List.length_map _).symm

/-- **The cache is an exact memo table.** After any calls it holds the texts that were parsed
since it was last cleared, each once; hits and misses together are the compilations since then,
and it misses each of its texts once and each refused one every time. The next compilation
gives what a fresh one gives, counts as a hit exactly if its text is held, and makes no entry
if the text is refused. The counters never exceed the number of calls, so 64 bits hold them as
long as they hold that. -/
theorem memo_table_exact (calls : List Call) :
    let s := after calls
    (∀ a ∈ s.log, a.result = CompiledPath.compile a.source) ∧
    (∀ source, s.cache.holds source = true ↔ ∃ path, ⟨source, .ok path⟩ ∈ s.log) ∧
    s.cache.size = s.parsed.dedup.length ∧
    s.cache.hits + s.cache.misses = s.log.length ∧
    s.log.length ≤ calls.length ∧
    s.cache.misses = s.cache.size + s.refused.length ∧
    ∀ source,
      let next := s.cache.compile source
      next.1 = CompiledPath.compile source ∧
      (∀ path, next.1 = .ok path ↔ path.source = source ∧ Path.parse source = .ok path.path) ∧
      (∀ e, next.1 = .error e ↔ Path.parse source = .error e) ∧
      (next.2.1.hits, next.2.1.misses) =
        (if s.cache.holds source then (s.cache.hits + 1, s.cache.misses)
          else (s.cache.hits, s.cache.misses + 1)) ∧
      ∀ e, Path.parse source = .error e →
        s.cache.holds source = false ∧ next.2.1.entries = s.cache.entries := by
  intro s
  have h : s.Exact := exact_after calls
  refine ⟨h.fresh, h.holds_iff, h.size_eq, h.calls, length_log_after calls, h.misses, ?_⟩
  intro source next
  have hresult : next.1 = CompiledPath.compile source := h.sound.compile_result source
  refine ⟨hresult, ?_, ?_, s.cache.compile_counts source, ?_⟩
  · intro path
    rw [hresult]
    exact CompiledPath.compile_eq_ok_iff
  · intro e
    rw [hresult]
    exact CompiledPath.compile_eq_error_iff
  · intro e he
    exact h.sound.entries_of_refused (CompiledPath.compile_eq_error_iff.mpr he)

/-- A text found again, a text refused twice, and one text in two spellings. -/
example :
    let c := (after [.clear, .compile "a.b", .compile "a[", .compile "a.b", .compile "a[",
      .compile "a . b"]).cache
    (c.hits, c.misses, c.size) = (1, 4, 2) := by
  decide +kernel

end CacheSession

end DocPath
