/-!
# Named fields

A finite mapping from names to values, held as a list of entries. Writing to a name
that is present changes its entry in place; a new name goes in front of the first
greater one, so a mapping built by `put` from the empty one lists its names in
ascending order of their code points, each once, whatever the order of the writes
(`ordered_ofList`). The order is a property of a list and not part of its type, because
values and their fields are defined by each other.
-/

namespace DocPath

abbrev Fields (α : Type) := List (String × α)

namespace Fields

variable {α β : Type}

def get? : Fields α → String → Option α
  | [], _ => none
  | (n, a) :: rest, name => if n = name then some a else get? rest name

def has (fields : Fields α) (name : String) : Bool :=
  (fields.get? name).isSome

/-- The entry of a name that is present gets another value. -/
def replace : Fields α → String → α → Fields α
  | [], _, _ => []
  | (n, a) :: rest, name, b => if n = name then (n, b) :: rest else (n, a) :: replace rest name b

/-- A new entry goes in front of the first greater name. -/
def insertNew : Fields α → String → α → Fields α
  | [], name, b => [(name, b)]
  | (n, a) :: rest, name, b =>
    if name < n then (name, b) :: (n, a) :: rest else (n, a) :: insertNew rest name b

def put (fields : Fields α) (name : String) (a : α) : Fields α :=
  if fields.has name then fields.replace name a else fields.insertNew name a

def erase (fields : Fields α) (name : String) : Fields α :=
  fields.filter fun entry => entry.1 ≠ name

def names (fields : Fields α) : List String :=
  fields.map (·.1)

/-- The names are in ascending order, each once. -/
def Ordered (fields : Fields α) : Prop :=
  fields.names.Pairwise (· < ·)

/-- Of two entries with one name the later wins. -/
def ofList (entries : List (String × α)) : Fields α :=
  entries.foldl (fun fields entry => fields.put entry.1 entry.2) []

/-! ## What the operations do to a look-up -/

theorem get?_replace (fields : Fields α) (m n : String) (a : α) :
    (fields.replace m a).get? n = if n = m ∧ fields.has m then some a else fields.get? n := by
  induction fields with
  | nil => simp [replace, get?, has]
  | cons entry rest ih =>
    obtain ⟨k, b⟩ := entry
    grind [replace, get?, has]

theorem get?_insertNew (fields : Fields α) (m n : String) (a : α) (h : fields.has m = false) :
    (fields.insertNew m a).get? n = if n = m then some a else fields.get? n := by
  induction fields with
  | nil => simp [insertNew, get?, eq_comm]
  | cons entry rest ih =>
    obtain ⟨k, b⟩ := entry
    have hk : k ≠ m := by
      intro e
      simp [has, get?, e] at h
    have hrest : Fields.has rest m = false := by simpa [has, get?, hk] using h
    simp only [insertNew]
    split
    · simp [get?, eq_comm]
    · by_cases hn : k = n
      · subst hn
        simp [get?, hk]
      · simp [get?, hn, ih hrest]

theorem get?_put (fields : Fields α) (m n : String) (a : α) :
    (fields.put m a).get? n = if n = m then some a else fields.get? n := by
  unfold put
  split
  · rename_i h
    simp [get?_replace, h]
  · rename_i h
    exact get?_insertNew fields m n a (by simpa using h)

theorem get?_erase (fields : Fields α) (m n : String) :
    (fields.erase m).get? n = if n = m then none else fields.get? n := by
  unfold erase
  induction fields with
  | nil => simp [get?]
  | cons entry rest ih =>
    obtain ⟨k, b⟩ := entry
    by_cases hk : k = m
    · subst hk
      by_cases hn : n = k
      · subst hn
        simpa using ih
      · simpa [get?, hn, Ne.symm hn] using ih
    · by_cases hn : k = n
      · subst hn
        simp [get?, hk]
      · simpa [get?, hk, hn] using ih

/-! ## What the operations do to the names -/

theorem has_iff_mem_names {fields : Fields α} {name : String} :
    fields.has name = true ↔ name ∈ fields.names := by
  induction fields with
  | nil => simp [has, get?, names]
  | cons entry rest ih =>
      obtain ⟨n, a⟩ := entry
      by_cases hn : n = name
      · simp [has, get?, names, hn]
      · simpa [has, get?, names, hn, Ne.symm hn] using ih

theorem names_insertNew_perm (fields : Fields α) (name : String) (a : α) :
    (fields.insertNew name a).names.Perm (name :: fields.names) := by
  induction fields with
  | nil => exact List.Perm.refl _
  | cons entry rest ih =>
      obtain ⟨n, b⟩ := entry
      unfold insertNew
      split
      · exact List.Perm.refl _
      · exact (ih.cons n).trans (List.Perm.swap name n _)

/-- A write to a new name adds just this name. -/
theorem names_put_perm {fields : Fields α} {name : String} (h : fields.get? name = none) (a : α) :
    (fields.put name a).names.Perm (name :: fields.names) := by
  unfold put
  rw [if_neg (by simp [has, h])]
  exact names_insertNew_perm fields name a

/-! ## What the operations do to the order -/

theorem ordered_nil : Ordered ([] : Fields α) := List.Pairwise.nil

theorem ordered_cons {n : String} {a : α} {rest : Fields α} :
    Ordered ((n, a) :: rest) ↔ (∀ m ∈ rest.names, n < m) ∧ rest.Ordered :=
  List.pairwise_cons

theorem names_replace (fields : Fields α) (name : String) (a : α) :
    (fields.replace name a).names = fields.names := by
  induction fields with
  | nil => rfl
  | cons entry rest ih =>
      obtain ⟨n, b⟩ := entry
      unfold replace
      split
      · rfl
      · exact congrArg (n :: ·) ih

theorem Ordered.insertNew {fields : Fields α} {name : String} (h : fields.Ordered)
    (hnew : name ∉ fields.names) (a : α) : (fields.insertNew name a).Ordered := by
  induction fields with
  | nil => exact List.pairwise_singleton _ _
  | cons entry rest ih =>
      obtain ⟨n, b⟩ := entry
      obtain ⟨hfirst, hrest⟩ := ordered_cons.mp h
      obtain ⟨hne, hnew⟩ := not_or.mp (mt List.mem_cons.mpr hnew)
      unfold Fields.insertNew
      split
      · rename_i hlt
        refine ordered_cons.mpr ⟨?_, h⟩
        intro m hm
        rcases List.mem_cons.mp hm with rfl | hm
        · exact hlt
        · exact String.lt_trans hlt (hfirst m hm)
      · rename_i hge
        have hlt : n < name := by
          rw [← String.not_le]
          exact fun hle => hne (String.le_antisymm hle (String.not_lt.mp hge))
        refine ordered_cons.mpr ⟨?_, ih hrest hnew⟩
        intro m hm
        rcases List.mem_cons.mp ((names_insertNew_perm rest name a).mem_iff.mp hm) with rfl | hm
        · exact hlt
        · exact hfirst m hm

theorem Ordered.put {fields : Fields α} (h : fields.Ordered) (name : String) (a : α) :
    (fields.put name a).Ordered := by
  unfold Fields.put
  split
  · rw [Ordered, names_replace]
    exact h
  · rename_i hnew
    exact h.insertNew (mt has_iff_mem_names.mpr hnew) a

theorem Ordered.erase {fields : Fields α} (h : fields.Ordered) (name : String) :
    (fields.erase name).Ordered :=
  h.sublist (List.filter_sublist.map _)

theorem Ordered.putAll {fields : Fields α} (h : fields.Ordered) (entries : List (String × α)) :
    (entries.foldl (fun fields entry => fields.put entry.1 entry.2) fields).Ordered := by
  induction entries generalizing fields with
  | nil => exact h
  | cons entry rest ih => exact ih (h.put entry.1 entry.2)

/-- A mapping that was built entry by entry is in order. -/
theorem ordered_ofList (entries : List (String × α)) : (ofList entries).Ordered :=
  ordered_nil.putAll entries

end Fields

end DocPath
