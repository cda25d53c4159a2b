import DocPath.Proofs.Path.Literal

/-!
# Indirect keys

A variable that is bound to a string or an integer stands for this literal key, and so does a nested path
that finds one (`Segment.Denotes`). Nested paths are resolved apart from the path around them, from the
root and in the same scope, so it makes no difference where in a path such a step is, how deep it is nested
and how many there are: with any of them written out as literals (`Path.WrittenOut`) the path is walked by
the same keys (`Path.resolve_writtenOut`).
-/

namespace DocPath

variable {scope : Scope} {document : Value}

/-- A step stands for a literal key: one that is written out in it, the one that its variable is bound to,
or the one that its nested path finds in the document. -/
inductive Segment.Denotes (scope : Scope) (document : Value) : Segment → Key → Prop where
  | literal {segment : Segment} {key : Key} (h : segment.literal? = some key) :
      Denotes scope document segment key
  | bound {name : String} {key : Key} (h : scope.get? name = some key.toValue) :
      Denotes scope document (.variable name) key
  | found {sub : Path} {key : Key} (h : (sub.resolve scope document).node = some key.toValue) :
      Denotes scope document (.nested sub) key

mutual

/-- A step with some of its keys written out: all of it as the literal key that it stands for, or parts of
its nested path, or nothing. -/
inductive Segment.WrittenOut (scope : Scope) (document : Value) : Segment → Segment → Prop where
  | same (segment : Segment) : Segment.WrittenOut scope document segment segment
  | key {segment literal : Segment} {key : Key} (hdenotes : segment.Denotes scope document key)
      (hliteral : literal.literal? = some key) : Segment.WrittenOut scope document segment literal
  | inside {p q : Path} (h : Path.WrittenOut scope document p q) :
      Segment.WrittenOut scope document (.nested p) (.nested q)

/-- A path with keys written out in any of its steps. -/
inductive Path.WrittenOut (scope : Scope) (document : Value) : Path → Path → Prop where
  | nil : Path.WrittenOut scope document [] []
  | cons {a b : Segment} {p q : Path} (hstep : Segment.WrittenOut scope document a b)
      (hrest : Path.WrittenOut scope document p q) :
      Path.WrittenOut scope document (a :: p) (b :: q)

end

theorem Segment.Denotes.keyIn_eq {segment : Segment} {key : Key}
    (h : segment.Denotes scope document key) : segment.keyIn scope document = key.toValue := by
  cases h with
  | literal h => exact Segment.keyIn_of_literal h scope document
  | bound h => rw [Segment.keyIn, Scope.getOr, h, Option.getD_some]
  | @found sub _ h =>
      have hnode : (Walk.along scope document sub (Walk.start document)).node = some key.toValue := h
      rw [Segment.keyIn, hnode, Option.getD_some]

mutual

theorem Segment.WrittenOut.keyIn_eq {a b : Segment} (h : a.WrittenOut scope document b) :
    a.keyIn scope document = b.keyIn scope document := by
  cases h with
  | same => rfl
  | key hdenotes hliteral =>
      rw [hdenotes.keyIn_eq, Segment.keyIn_of_literal hliteral]
  | inside h =>
      -- both nested paths start again at the root, and there they are walked alike
      rw [Segment.keyIn, Segment.keyIn, h.along_eq]

theorem Path.WrittenOut.along_eq {p q : Path} (h : p.WrittenOut scope document q) (w : Walk) :
    Walk.along scope document p w = Walk.along scope document q w := by
  cases h with
  | nil => rfl
  | cons hstep hrest =>
      rw [Walk.along, Walk.along, hstep.keyIn_eq]
      cases w.node with
      | none => rfl
      | some node => exact hrest.along_eq _

end

/-- **Indirect keys mean the literals that they stand for.** With any of them written out, at any places
and depths, and with any names written as strings in brackets or back, a path has the same resolution. -/
theorem Path.resolve_writtenOut {p q : Path} (h : p.WrittenOut scope document q) :
    let r := p.resolve scope document
    let r' := q.resolve scope document
    r.ok = r'.ok ∧ r.node = r'.node ∧ r.parent = r'.parent ∧ r.lastKey = r'.lastKey ∧
      r.resolvedKeys = r'.resolvedKeys := by
  intro r r'
  have hwalk := h.along_eq (Walk.start document)
  exact ⟨congrArg Walk.ok hwalk, congrArg Walk.node hwalk, congrArg Walk.parent hwalk,
    congrArg Walk.lastKey hwalk, congrArg Walk.keys hwalk⟩

/-- A variable that shadows another one, a nested path that is written out as a whole, and one of which
only the keys of the path nested in it are. -/
theorem Path.resolve_writtenOut_nested :
    let scope := Scope.inside [("i", .integer 0)]
      (.outermost [("i", .string "shadowed"), ("j", .string "x")])
    let document := Value.object [("a", .array [.object [("n", .array [.boolean true])]]),
      ("k", .object [("x", .string "n")]), ("n", .integer 0)]
    let p : Path := [.name "a", .variable "i", .nested [.name "k", .variable "j"],
      .nested [.nested [.name "k", .variable "j"]]]
    let q : Path := [.index (.str "a"), .index (.int 0), .name "n",
      .nested [.nested [.index (.str "k"), .name "x"]]]
    p.WrittenOut scope document q ∧ (p.resolve scope document).node = some (.boolean true) ∧
      (q.resolve scope document).node = some (.boolean true) ∧
      (q.resolve scope document).resolvedKeys =
        [.string "a", .integer 0, .string "n", .integer 0] := by
  intro scope document p q
  have hinner : Path.WrittenOut scope document [.name "k", .variable "j"]
      [.index (.str "k"), .name "x"] :=
    .cons (.key (.literal rfl) rfl) (.cons (.key (.bound rfl) rfl) .nil)
  have hfound : (Path.resolve [.name "k", .variable "j"] scope document).node =
      some (Key.str "n").toValue := by rfl
  have hwritten : p.WrittenOut scope document q :=
    .cons (.key (.literal rfl) rfl) <| .cons (.key (.bound rfl) rfl) <|
      .cons (.key (.found hfound) rfl) <|
      .cons (.inside (.cons (.inside hinner) .nil)) .nil
  have hnode : (p.resolve scope document).node = some (.boolean true) := by rfl
  have hkeys : (p.resolve scope document).resolvedKeys =
      [.string "a", .integer 0, .string "n", .integer 0] := by rfl
  obtain ⟨-, hnode', -, -, hkeys'⟩ := resolve_writtenOut hwritten
  exact ⟨hwritten, hnode, hnode'.symm.trans hnode, hkeys'.symm.trans hkeys⟩

end DocPath
