import DocPath.Fields
import Mathlib.Data.List.Forall2

/-!
# Named fields as mappings

A mapping is a list of entries, so two of them are the same only if their entries stand in the same
order. Where a new entry goes depends on the names that are greater and on nothing else. So the order
of two writes to different names cannot be seen (`Fields.put_comm`), a second write to a name leaves
no trace of the first (`Fields.put_put`), and erasing a new name undoes its write
(`Fields.erase_put`).

If the names are in order, nothing of a mapping can be seen but what it has under each name. Two
ordered mappings are alike entry by entry if they are alike name by name
(`Fields.Ordered.forall₂_iff`), and they are the same if they have the same under each name
(`Fields.Ordered.eq_of_get?`).
-/

namespace DocPath.Fields

variable {α : Type} {fields : Fields α} {m n name : String} {a : α}

theorem put_of_has (h : fields.has name = true) (a : α) :
    fields.put name a = fields.replace name a := if_pos h

theorem put_of_new (h : fields.has name = false) (a : α) :
    fields.put name a = fields.insertNew name a := if_neg (Bool.eq_false_iff.mp h)

theorem has_put_self (fields : Fields α) (name : String) (a : α) :
    (fields.put name a).has name = true := by
  rw [has, get?_put, if_pos rfl]
  rfl

theorem has_put_of_ne (h : n ≠ m) (fields : Fields α) (a : α) :
    (fields.put m a).has n = fields.has n := by
  rw [has, get?_put, if_neg h]
  rfl

theorem has_cons_eq_false {rest : Fields α} :
    has ((n, a) :: rest) name = false ↔ n ≠ name ∧ has rest name = false := by
  by_cases hn : n = name <;> simp [has, get?, hn]

/-! ## One name -/

theorem replace_replace (fields : Fields α) (name : String) (a b : α) :
    (fields.replace name a).replace name b = fields.replace name b := by
  induction fields with
  | nil => rfl
  | cons entry rest ih =>
      obtain ⟨k, c⟩ := entry
      by_cases hk : k = name
      · simp [replace, hk]
      · simp [replace, hk, ih]

theorem replace_of_get? (h : fields.get? name = some a) : fields.replace name a = fields := by
  induction fields with
  | nil => rfl
  | cons entry rest ih =>
      obtain ⟨k, c⟩ := entry
      by_cases hk : k = name
      · obtain rfl : c = a := by simpa [get?, hk] using h
        simp [replace, hk]
      · simpa [replace, hk] using ih (by simpa [get?, hk] using h)

theorem replace_insertNew (h : fields.has name = false) (a b : α) :
    (fields.insertNew name a).replace name b = fields.insertNew name b := by
  induction fields with
  | nil => simp [insertNew, replace]
  | cons entry rest ih =>
      obtain ⟨k, c⟩ := entry
      obtain ⟨hk, hrest⟩ := has_cons_eq_false.mp h
      unfold insertNew
      split
      · simp [replace]
      · simp [replace, hk, ih hrest]

/-- Of two writes to one name the later wins. -/
theorem put_put (fields : Fields α) (name : String) (a b : α) :
    (fields.put name a).put name b = fields.put name b := by
  rw [put_of_has (has_put_self fields name a)]
  cases h : fields.has name with
  | true => rw [put_of_has h, put_of_has h, replace_replace]
  | false => rw [put_of_new h, put_of_new h, replace_insertNew h]

theorem erase_of_new (h : fields.has name = false) : fields.erase name = fields := by
  induction fields with
  | nil => rfl
  | cons entry rest ih =>
      obtain ⟨k, c⟩ := entry
      obtain ⟨hk, hrest⟩ := has_cons_eq_false.mp h
      simpa [erase, hk] using ih hrest

theorem erase_insertNew (h : fields.has name = false) (a : α) :
    (fields.insertNew name a).erase name = fields := by
  induction fields with
  | nil => simp [insertNew, erase]
  | cons entry rest ih =>
      obtain ⟨k, c⟩ := entry
      obtain ⟨hk, hrest⟩ := has_cons_eq_false.mp h
      unfold insertNew
      split
      · simpa [erase] using erase_of_new h
      · simpa [erase, hk] using ih hrest

/-- Erasing a new name undoes its write. -/
theorem erase_put (h : fields.has name = false) (a : α) :
    (fields.put name a).erase name = fields := by
  rw [put_of_new h, erase_insertNew h]

/-! ## Two names -/

theorem replace_comm (h : m ≠ n) (fields : Fields α) (a b : α) :
    (fields.replace m a).replace n b = (fields.replace n b).replace m a := by
  induction fields with
  | nil => rfl
  | cons entry rest ih =>
      obtain ⟨k, c⟩ := entry
      by_cases hm : k = m
      · simp [replace, hm, h]
      · by_cases hn : k = n
        · simp [replace, hn, h.symm]
        · simp [replace, hm, hn, ih]

theorem replace_insertNew_comm (h : m ≠ n) (fields : Fields α) (a b : α) :
    (fields.insertNew m a).replace n b = (fields.replace n b).insertNew m a := by
  induction fields with
  | nil => simp [insertNew, replace, h]
  | cons entry rest ih =>
      obtain ⟨k, c⟩ := entry
      by_cases hlt : m < k
      · by_cases hn : k = n
        · subst hn
          simp [insertNew, replace, hlt, h]
        · simp [insertNew, replace, hlt, hn, h]
      · by_cases hn : k = n
        · subst hn
          simp [insertNew, replace, hlt]
        · simp [insertNew, replace, hlt, hn, ih]

theorem insertNew_comm_of_lt (h : m < n) (fields : Fields α) (a b : α) :
    (fields.insertNew m a).insertNew n b = (fields.insertNew n b).insertNew m a := by
  have hback : ¬n < m := String.lt_asymm h
  induction fields with
  | nil => simp [insertNew, h, hback]
  | cons entry rest ih =>
      obtain ⟨k, c⟩ := entry
      -- both go in front of `k`, or the lesser name alone does, or neither
      by_cases hn : n < k
      · have hm : m < k := String.lt_trans h hn
        simp [insertNew, hn, hm, h, hback]
      · by_cases hm : m < k
        · simp [insertNew, hn, hm, hback]
        · simp [insertNew, hn, hm, ih]

theorem insertNew_comm (h : m ≠ n) (fields : Fields α) (a b : α) :
    (fields.insertNew m a).insertNew n b = (fields.insertNew n b).insertNew m a := by
  by_cases hlt : m < n
  · exact insertNew_comm_of_lt hlt fields a b
  · have hgt : n < m := by
      rw [← String.not_le]
      exact fun hle => h (String.le_antisymm hle (String.not_lt.mp hlt))
    exact (insertNew_comm_of_lt hgt fields b a).symm

/-- The order of writes to different names cannot be seen. -/
theorem put_comm (h : m ≠ n) (fields : Fields α) (a b : α) :
    (fields.put m a).put n b = (fields.put n b).put m a := by
  have hn : (fields.put m a).has n = fields.has n := has_put_of_ne h.symm fields a
  have hm : (fields.put n b).has m = fields.has m := has_put_of_ne h fields b
  cases hasm : fields.has m with
  | true =>
      cases hasn : fields.has n with
      | true =>
          rw [put_of_has (hn.trans hasn), put_of_has (hm.trans hasm), put_of_has hasm,
            put_of_has hasn, replace_comm h]
      | false =>
          rw [put_of_new (hn.trans hasn), put_of_has (hm.trans hasm), put_of_has hasm,
            put_of_new hasn, replace_insertNew_comm h.symm]
  | false =>
      cases hasn : fields.has n with
      | true =>
          rw [put_of_has (hn.trans hasn), put_of_new (hm.trans hasm), put_of_new hasm,
            put_of_has hasn, replace_insertNew_comm h]
      | false =>
          rw [put_of_new (hn.trans hasn), put_of_new (hm.trans hasm), put_of_new hasm,
            put_of_new hasn, insertNew_comm h]

/-! ## All names -/

theorem get?_first (n : String) (a : α) (rest : Fields α) : get? ((n, a) :: rest) n = some a :=
  if_pos rfl

theorem get?_of_lt (h : ∀ m ∈ fields.names, name < m) : fields.get? name = none := by
  rw [← Option.not_isSome_iff_eq_none]
  exact fun hhas => String.lt_irrefl name (h name (has_iff_mem_names.mp hhas))

theorem Ordered.get?_of_lt_first {rest : Fields α} (h : Ordered ((n, a) :: rest)) (hlt : name < n) :
    get? ((n, a) :: rest) name = none := by
  refine get?_of_lt fun m hm => ?_
  rcases List.mem_cons.mp hm with rfl | hm
  · exact hlt
  · exact String.lt_trans hlt ((ordered_cons.mp h).1 m hm)

section

variable {β : Type} {R : α → β → Prop} {f : Fields α} {g : Fields β}

theorem get?_of_forall₂ (h : List.Forall₂ (fun d e => d.1 = e.1 ∧ R d.2 e.2) f g) (name : String) :
    Option.Rel R (f.get? name) (g.get? name) := by
  induction h with
  | nil => exact .none
  | @cons d e f g hentry _ ih =>
      obtain ⟨k, a⟩ := d
      obtain ⟨l, b⟩ := e
      obtain ⟨rfl, hr⟩ := hentry
      unfold get?
      split
      · exact .some hr
      · exact ih

/-- The lesser of two first names would be missing in the other mapping. -/
theorem Ordered.first_eq {k l : String} {b : β} (hf : Ordered ((k, a) :: f))
    (hg : Ordered ((l, b) :: g))
    (h : ∀ name, Option.Rel R (get? ((k, a) :: f) name) (get? ((l, b) :: g) name)) : k = l := by
  have hkl : ¬k < l := by
    intro hlt
    have hfirst := h k
    rw [get?_first, hg.get?_of_lt_first hlt] at hfirst
    cases hfirst
  have hlk : ¬l < k := by
    intro hlt
    have hfirst := h l
    rw [get?_first, hf.get?_of_lt_first hlt] at hfirst
    cases hfirst
  exact String.le_antisymm (String.not_lt.mp hlk) (String.not_lt.mp hkl)

/-- Mappings in order are alike entry by entry exactly if they are alike name by name. -/
theorem Ordered.forall₂_iff (hf : f.Ordered) (hg : g.Ordered) :
    List.Forall₂ (fun d e => d.1 = e.1 ∧ R d.2 e.2) f g ↔
      ∀ name, Option.Rel R (f.get? name) (g.get? name) := by
  refine ⟨get?_of_forall₂, fun h => ?_⟩
  induction f generalizing g with
  | nil =>
      cases g with
      | nil => exact .nil
      | cons e g =>
          have hfirst := h e.1
          rw [get?_first] at hfirst
          cases hfirst
  | cons d f ih =>
      obtain ⟨k, a⟩ := d
      have hfirst := h k
      rw [get?_first] at hfirst
      cases g with
      | nil => cases hfirst
      | cons e g =>
          obtain ⟨l, b⟩ := e
          obtain rfl : k = l := hf.first_eq hg h
          obtain ⟨hrestf, hf⟩ := ordered_cons.mp hf
          obtain ⟨hrestg, hg⟩ := ordered_cons.mp hg
          rw [get?_first] at hfirst
          cases hfirst with
          | some hr =>
              refine .cons ⟨rfl, hr⟩ (ih hf hg fun name => ?_)
              by_cases hname : k = name
              · subst hname
                rw [get?_of_lt hrestf, get?_of_lt hrestg]
                exact .none
              · simpa [get?, hname] using h name

end

/-- A mapping in order is what it has under each name. -/
theorem Ordered.eq_of_get? {f g : Fields α} (hf : f.Ordered) (hg : g.Ordered)
    (h : ∀ name, f.get? name = g.get? name) : f = g := by
  have hrel : ∀ name, Option.Rel Eq (f.get? name) (g.get? name) := by
    intro name
    rw [h name]
    cases g.get? name with
    | none => exact .none
    | some a => exact .some rfl
  have halike := (hf.forall₂_iff hg).mpr hrel
  simpa only [← Prod.ext_iff, List.forall₂_eq_eq_eq] using halike

end DocPath.Fields
