import DocPath.Proofs.Path.Printing

/-!
# Faithful texts

The text of a path loses the brackets around a lone variable, so it may be read as another path. A second
pair of brackets around such a variable (`Path.wrap`) makes up for that: it is the pair that collapses
(`Path.collapse_wrap`). So a path whose names are names has a text that is read as this very path
(`Path.parse_faithfulText`), and the parser returns these paths and no others
(`Path.parsed_iff_wellFormed`).
-/

namespace DocPath

mutual

/-- Every nested path that is a lone variable goes into another pair of brackets. -/
def Segment.wrap : Segment → Segment
  | .nested [.variable name] => .nested [.nested [.variable name]]
  | .nested path => .nested (Path.wrap path)
  | .index key => .index key
  | .name name => .name name
  | .variable name => .variable name

def Path.wrap : Path → Path
  | [] => []
  | segment :: rest => segment.wrap :: Path.wrap rest

end

theorem Segment.wrap_nested {path : Path} (h : ¬path.IsLoneVariable) :
    (Segment.nested path).wrap = .nested path.wrap := by
  rw [Segment.wrap]
  rintro name rfl
  exact h ⟨name, rfl⟩

theorem Path.wrap_eq_map (p : Path) : p.wrap = p.map Segment.wrap := by
  induction p with
  | nil => rfl
  | cons segment rest ih => rw [Path.wrap, ih, List.map_cons]

/-- No other step becomes a variable. -/
theorem Segment.eq_variable_of_wrap {s : Segment} {name : String}
    (h : s.wrap = .variable name) : s = .variable name := by
  cases s with
  | «variable» other => exact h
  | index key | name other => cases h
  | nested path =>
      by_cases hlone : Path.IsLoneVariable path
      · obtain ⟨other, rfl⟩ := hlone
        cases h
      · rw [wrap_nested hlone] at h
        cases h

theorem Path.IsLoneVariable.of_wrap {p : Path} (h : p.wrap.IsLoneVariable) : p.IsLoneVariable := by
  obtain ⟨name, h⟩ := h
  rw [wrap_eq_map] at h
  obtain ⟨segment, rfl, hsegment⟩ := List.map_eq_singleton_iff.mp h
  exact ⟨name, congrArg (· :: []) (Segment.eq_variable_of_wrap hsegment)⟩

mutual

theorem Segment.collapse_wrap (s : Segment) : s.wrap.collapse = s := by
  match s with
  | .index key | .name name | .variable name => rfl
  | .nested path =>
      by_cases hlone : Path.IsLoneVariable path
      · obtain ⟨name, rfl⟩ := hlone
        rfl
      · rw [Segment.wrap_nested hlone, Segment.collapse_nested fun h => hlone h.of_wrap,
          Path.collapse_wrap path]

/-- What is lost in writing is what was added. -/
theorem Path.collapse_wrap (p : Path) : p.wrap.collapse = p := by
  match p with
  | [] => rfl
  | segment :: rest =>
      rw [Path.wrap, Path.collapse, Segment.collapse_wrap segment, Path.collapse_wrap rest]

end

theorem Segment.WellFormed.wrap {s : Segment} (h : s.WellFormed) : s.wrap.WellFormed := by
  induction h with
  | index key => exact .index key
  | name h => exact .name h
  | variableName h => exact .variableName h
  | @nested path hne hsteps ih =>
      by_cases hlone : Path.IsLoneVariable path
      · obtain ⟨name, rfl⟩ := hlone
        rw [Segment.wrap, wellFormed_nested_iff, Path.wellFormed_singleton_iff]
        exact .nested hne hsteps
      · rw [Segment.wrap_nested hlone, Path.wrap_eq_map]
        exact .nested (mt List.map_eq_nil_iff.mp hne) (List.forall_mem_map.mpr ih)

theorem Path.WellFormed.wrap {p : Path} (h : p.WellFormed) : p.wrap.WellFormed := by
  obtain ⟨hne, hsteps⟩ := h
  rw [Path.wrap_eq_map]
  exact ⟨mt List.map_eq_nil_iff.mp hne, List.forall_mem_map.mpr fun s hs => (hsteps s hs).wrap⟩

/-- A text that loses nothing of the path. -/
def Path.faithfulText (p : Path) : String :=
  p.wrap.text

theorem Path.parse_faithfulText {p : Path} (h : p.WellFormed) :
    Path.parse p.faithfulText = .ok p := by
  rw [faithfulText, parse_text h.wrap, collapse_wrap]

example : Path.faithfulText [.name "a", .nested [.variable "x"]] = "a[[$x]]" := by decide +kernel

/-- **The parser returns exactly the well-formed paths**, each of them for its faithful text. Literal keys
are all among them, and so is a nested path that is one variable and nothing else. -/
theorem Path.parsed_iff_wellFormed :
    (∀ p : Path, (∃ text, Path.parse text = .ok p) ↔ p.WellFormed) ∧
    (∀ p : Path, p.WellFormed ↔ Path.parse p.faithfulText = .ok p) ∧
    (∀ key : Key, ∃ text, Path.parse text = .ok [.index key]) ∧
    ∀ name : String, (∃ text, Path.parse text = .ok [.nested [.variable name]]) ↔
      Text.IsName name.toList := by
  have hrange (p : Path) : (∃ text, Path.parse text = .ok p) ↔ p.WellFormed := by
    constructor
    · rintro ⟨text, hparse⟩
      exact wellFormed_of_parse hparse
    · exact fun h => ⟨p.faithfulText, parse_faithfulText h⟩
  refine ⟨hrange, fun p => ⟨parse_faithfulText, wellFormed_of_parse⟩, ?_, ?_⟩
  · intro key
    rw [hrange, wellFormed_singleton_iff]
    exact .index key
  · intro name
    rw [hrange, wellFormed_singleton_iff, Segment.wellFormed_nested_iff, wellFormed_singleton_iff,
      Segment.wellFormed_variable_iff]

end DocPath
