import DocPath.CommandLine.Run

/-!
# What the program reads

The arguments are read first. They say whether standard input is read too, and which file, if any; nothing
else that the program finds around it has a part in what it does (`run_congr`). So it can be run with as
much as its request asks for and no more, which is how `main` runs it (`run_narrowed`). Where its files are
a tree, no name leads out of the tree (`Place.root_walk`).
-/

namespace DocPath.CommandLine

/-! ## Requests -/

/-- The file that is read, if one is. -/
def Request.file? : Request → Option String
  | .parse file => file
  | _ => none

namespace Surroundings

/-- A request finds the same to read in both surroundings. -/
structure AgreeOn (request : Request) (w w' : Surroundings) : Prop where
  input : request.readsStandardInput = true → w.standardInput = w'.standardInput
  file : ∀ name, request.file? = some name → w.readFile name = w'.readFile name

/-- As much of the surroundings as the arguments ask for. -/
def narrowed (w : Surroundings) : Surroundings :=
  let request := Request.ofArguments w.arguments
  let input := if request.any Request.readsStandardInput then w.standardInput else ByteArray.empty
  let file := match request.bind Request.file? with
    | some name => w.readFile name
    | none => .error .notFound
  ⟨w.arguments, input, fun _ => file⟩

theorem narrowed_agreeOn {w : Surroundings} {request : Request}
    (h : Request.ofArguments w.arguments = some request) : AgreeOn request w.narrowed w := by
  constructor
  · intro hreads
    simp only [narrowed, h, Option.any_some, hreads, if_true]
  · intro name hname
    simp only [narrowed, h, Option.bind_some, hname]

end Surroundings

/-! ## Runs -/

section

variable {w w' : Surroundings}

theorem inputText_congr (input : Option String)
    (h : input.isNone = true → w.standardInput = w'.standardInput) :
    inputText w input = inputText w' input := by
  cases input with
  | some text => rfl
  | none => rw [inputText, inputText, h rfl]

theorem runParse_congr {file : Option String} (h : Surroundings.AgreeOn (.parse file) w w') :
    runParse w file = runParse w' file := by
  cases file with
  | none => rw [runParse, runParse, h.input rfl]
  | some name => rw [runParse, runParse, h.file name rfl]

/-- The program does the same in surroundings that agree on what its arguments ask for. -/
theorem run_congr (harguments : w.arguments = w'.arguments)
    (h : ∀ request, Request.ofArguments w.arguments = some request →
      Surroundings.AgreeOn request w w') : run w = run w' := by
  unfold run
  rw [← harguments]
  cases hrequest : Request.ofArguments w.arguments with
  | none => rfl
  | some request =>
      have h := h request hrequest
      cases request with
      | version | help topic => rfl
      | parse file => exact runParse_congr h
      | resolve path options =>
          have hinput := inputText_congr options.input h.input
          simp only [runResolve, hinput]
      | mutate verb path value options =>
          have hinput := inputText_congr options.input h.input
          simp only [runMutate, hinput]

/-- So nothing else need be there. -/
theorem run_narrowed (w : Surroundings) : run w.narrowed = run w :=
  run_congr rfl fun _ hrequest => Surroundings.narrowed_agreeOn hrequest

end

/-! ## Trees of files -/

namespace Place

theorem root_root (p : Place) : p.root.root = p.root := by
  obtain ⟨node, above⟩ := p
  cases h : above.getLast? with
  | none => simp only [root, h]
  | some top => simp [root, h]

theorem root_step {p q : Place} {part : String} (h : p.step part = .ok q) : q.root = p.root := by
  obtain ⟨node, above⟩ := p
  unfold step at h
  split at h
  · cases h
  split at h
  · exact Except.ok.inj h ▸ rfl
  split at h
  · cases above with
    | nil => exact Except.ok.inj h ▸ rfl
    | cons parent above =>
        cases h
        cases above with
        | nil => rfl
        | cons _ _ => rfl
  split at h
  · cases h
  split at h
  · cases h
    cases above with
    | nil => rfl
    | cons _ _ => rfl
  · cases h

theorem root_steps {p q : Place} {parts : List String} (h : parts.foldlM step p = .ok q) :
    q.root = p.root := by
  induction parts generalizing p with
  | nil => exact Except.ok.inj h ▸ rfl
  | cons part rest ih =>
      rw [List.foldlM_cons] at h
      cases hstep : p.step part with
      | error e =>
          rw [hstep] at h
          cases h
      | ok next =>
          rw [hstep] at h
          exact (ih h).trans (root_step hstep)

/-- No name leads out of the tree. -/
theorem root_walk {p q : Place} {name : String} (h : p.walk name = .ok q) : q.root = p.root := by
  unfold walk at h
  split at h
  · cases h
  · rw [root_steps h]
    split
    · exact p.root_root
    · rfl

end Place

end DocPath.CommandLine
