import DocPath.Path.Text

/-!
# Nothing is lost in the tagged form

A pair in the tagged form says by its tag what kind of step it stands for, and of literal keys the kind
of the payload tells an integer from a string. So different steps have different pairs, nested paths
by induction, and the tagged form is that of one path only, be the path well-formed or not
(`Path.tagged_form_unique`).
-/

namespace DocPath

theorem JsonNumber.ofInt64_inj {m n : Int64} : ofInt64 m = ofInt64 n ↔ m = n := by
  constructor
  · intro h
    injection h with hvalue
    exact Int64.toInt_inj.mp hvalue
  · rintro rfl
    rfl

/-- An integer is no string, and neither has two payloads. -/
theorem Key.toJson_inj {j k : Key} : j.toJson = k.toJson ↔ j = k := by
  cases j with
  | int m =>
      cases k with
      | int n =>
          show Json.number (.ofInt64 m) = .number (.ofInt64 n) ↔ _
          rw [Json.number.injEq, Key.int.injEq, JsonNumber.ofInt64_inj]
      | str t => simp [toJson, Json.ofInt64]
  | str s =>
      cases k with
      | int n => simp [toJson, Json.ofInt64]
      | str t => rw [toJson, toJson, Json.string.injEq, Key.str.injEq]

/-- Pairs are equal if the tags are and the payloads are. -/
theorem Json.taggedPair_inj {s t : String} {x y : Json} :
    Json.array [.string s, x] = .array [.string t, y] ↔ s = t ∧ x = y := by
  simp

mutual

theorem Segment.toJson_inj : (a b : Segment) → (a.toJson = b.toJson ↔ a = b)
  | .index j, .index k => by
      rw [Segment.toJson, Segment.toJson, Json.taggedPair_inj, Segment.index.injEq, Key.toJson_inj]
      exact and_iff_right rfl
  | .name m, .name n => by
      rw [Segment.toJson, Segment.toJson, Json.taggedPair_inj, Segment.name.injEq, Json.string.injEq]
      exact and_iff_right rfl
  | .variable m, .variable n => by
      rw [Segment.toJson, Segment.toJson, Json.taggedPair_inj, Segment.variable.injEq, Json.string.injEq]
      exact and_iff_right rfl
  | .nested p, .nested q => by
      rw [Segment.toJson, Segment.toJson, Json.taggedPair_inj, Segment.nested.injEq, Json.array.injEq,
        Path.toItems_inj p q]
      exact and_iff_right rfl
  -- steps of different kinds have different tags
  | .index _, .name _ | .index _, .variable _ | .index _, .nested _
  | .name _, .index _ | .name _, .variable _ | .name _, .nested _
  | .variable _, .index _ | .variable _, .name _ | .variable _, .nested _
  | .nested _, .index _ | .nested _, .name _ | .nested _, .variable _ => by
      simp [Segment.toJson]

theorem Path.toItems_inj : (p q : List Segment) → (Path.toItems p = Path.toItems q ↔ p = q)
  | [], [] => by simp
  | [], _ :: _ | _ :: _, [] => by simp [Path.toItems]
  | a :: p, b :: q => by
      rw [Path.toItems, Path.toItems, List.cons.injEq, List.cons.injEq, Segment.toJson_inj a b,
        Path.toItems_inj p q]

end

/-- **The tagged form loses nothing.** Two paths with one tagged form are one path, whatever names, keys
and nested paths are in them. -/
theorem Path.tagged_form_unique (p q : Path) : p.toJson = q.toJson ↔ p = q := by
  rw [toJson, toJson, Json.array.injEq]
  exact toItems_inj p q

end DocPath
