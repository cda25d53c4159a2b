import DocPath.Proofs.Value.Slots
import DocPath.Value.Json

/-!
# Values in order

The fields of an object are a list, and two objects are compared field by field. That is right as long as
every object lists its names in ascending order, each once (`Value.Ordered`): then two objects are equal
exactly if they have equal values under each name (`Value.equals_object_iff`). A JSON text is read into
such values, in whatever order its members stand and however often a name comes up
(`Value.ordered_of_read`), and they are written as such (`Value.Ordered.toJson`). What is found in a value
in order is in order, and so is the value after something in order was put into one of its slots
(`Value.Ordered.slot?`).
-/

namespace DocPath

namespace Fields

variable {α : Type} {P : α → Prop} {fields : Fields α} {name : String} {a : α}

/-- A property of all values of a mapping. -/
def All (P : α → Prop) (fields : Fields α) : Prop :=
  ∀ entry ∈ fields, P entry.2

theorem All.get? (h : fields.All P) (hget : fields.get? name = some a) : P a := by
  induction fields with
  | nil => cases hget
  | cons entry rest ih =>
      obtain ⟨hfirst, hrest⟩ := List.forall_mem_cons.mp h
      unfold Fields.get? at hget
      split at hget
      · exact Option.some.inj hget ▸ hfirst
      · exact ih hrest hget

theorem All.replace (h : fields.All P) (name : String) (ha : P a) : (fields.replace name a).All P := by
  induction fields with
  | nil => exact h
  | cons entry rest ih =>
      obtain ⟨hfirst, hrest⟩ := List.forall_mem_cons.mp h
      unfold Fields.replace
      split
      · exact List.forall_mem_cons.mpr ⟨ha, hrest⟩
      · exact List.forall_mem_cons.mpr ⟨hfirst, ih hrest⟩

theorem All.insertNew (h : fields.All P) (name : String) (ha : P a) :
    (fields.insertNew name a).All P := by
  induction fields with
  | nil => exact List.forall_mem_singleton.mpr ha
  | cons entry rest ih =>
      obtain ⟨hfirst, hrest⟩ := List.forall_mem_cons.mp h
      unfold Fields.insertNew
      split
      · exact List.forall_mem_cons.mpr ⟨ha, h⟩
      · exact List.forall_mem_cons.mpr ⟨hfirst, ih hrest⟩

theorem All.put (h : fields.All P) (name : String) (ha : P a) : (fields.put name a).All P := by
  unfold Fields.put
  split
  · exact h.replace name ha
  · exact h.insertNew name ha

theorem All.erase (h : fields.All P) (name : String) : (fields.erase name).All P :=
  fun entry hentry => h entry (List.mem_of_mem_filter hentry)

theorem All.putAll {entries : List (String × α)} (h : fields.All P)
    (hentries : ∀ entry ∈ entries, P entry.2) :
    (entries.foldl (fun fields entry => fields.put entry.1 entry.2) fields).All P := by
  induction entries generalizing fields with
  | nil => exact h
  | cons entry rest ih =>
      obtain ⟨hentry, hrest⟩ := List.forall_mem_cons.mp hentries
      exact ih (h.put entry.1 hentry) hrest

end Fields

/-! ## JSON -/

/-- All objects in a JSON value list their names in ascending order, each once. -/
inductive Json.Ordered : Json → Prop where
  | null : Ordered .null
  | bool (b : Bool) : Ordered (.bool b)
  | number (n : JsonNumber) : Ordered (.number n)
  | string (s : String) : Ordered (.string s)
  | array {items : List Json} (hitems : ∀ j ∈ items, Ordered j) : Ordered (.array items)
  | object {members : List (String × Json)} (hnames : Fields.Ordered members)
      (hvalues : Fields.All Ordered members) : Ordered (.object members)

namespace Json

theorem ordered_array_iff {items : List Json} : (array items).Ordered ↔ ∀ j ∈ items, j.Ordered := by
  constructor
  · rintro ⟨⟩
    assumption
  · exact .array

theorem ordered_object_iff {members : List (String × Json)} :
    (object members).Ordered ↔ Fields.Ordered members ∧ Fields.All Ordered members := by
  constructor
  · rintro ⟨⟩
    exact ⟨‹_›, ‹_›⟩
  · exact fun h => .object h.1 h.2

theorem Ordered.put {members : Fields Json} (h : (Json.object members).Ordered) (name : String)
    {j : Json} (hj : j.Ordered) : (Json.object (members.put name j)).Ordered := by
  obtain ⟨hnames, hvalues⟩ := ordered_object_iff.mp h
  exact .object (hnames.put name j) (hvalues.put name hj)

end Json

namespace JsonToken

/-- What a token brings with it is in order. -/
def Ordered : JsonToken → Prop
  | .scalar j => j.Ordered
  | _ => True

theorem ordered_of_literal? {name : List Char} {j : Json} (h : literal? name = some j) :
    j.Ordered := by
  unfold literal? at h
  split at h
  · exact Option.some.inj h ▸ .null
  split at h
  · exact Option.some.inj h ▸ .bool true
  split at h
  · exact Option.some.inj h ▸ .bool false
  · cases h

theorem ordered_of_punctuation? {c : Char} {t : JsonToken} (h : punctuation? c = some t) :
    t.Ordered := by
  unfold punctuation? at h
  split at h
  all_goals cases h
  all_goals trivial

theorem ordered_of_first? {c : Char} {cs rest : List Char} {t : JsonToken}
    (h : first? c cs = some (t, rest)) : t.Ordered := by
  unfold first? at h
  split at h
  · rename_i t' hpunctuation
    cases h
    exact ordered_of_punctuation? hpunctuation
  split at h
  · obtain ⟨body, -, hbody⟩ := Option.map_eq_some_iff.mp h
    cases hbody
    trivial
  split at h
  · obtain ⟨n, -, hn⟩ := Option.map_eq_some_iff.mp h
    cases hn
    exact .number n
  · obtain ⟨j, hliteral, hj⟩ := Option.map_eq_some_iff.mp h
    cases hj
    exact ordered_of_literal? hliteral

theorem ordered_of_all? {cs : List Char} {tokens : List JsonToken} (h : all? cs = some tokens) :
    ∀ t ∈ tokens, t.Ordered := by
  induction cs using all?.induct generalizing tokens with
  | case1 =>
      rw [all?] at h
      cases h
      exact fun t ht => absurd ht List.not_mem_nil
  | case2 c cs hblank ih =>
      rw [all?, if_pos hblank] at h
      exact ih h
  | case3 c cs hblank hfirst =>
      rw [all?, if_neg hblank] at h
      split at h
      · cases h
      · rename_i t rest hsome
        rw [hfirst] at hsome
        cases hsome
  | case4 c cs hblank t rest hfirst ih =>
      rw [all?, if_neg hblank] at h
      split at h
      · cases h
      · rename_i t' rest' hsome
        rw [hfirst] at hsome
        cases hsome
        obtain ⟨more, hmore, rfl⟩ := Option.map_eq_some_iff.mp h
        exact List.forall_mem_cons.mpr ⟨ordered_of_first? hfirst, ih hmore⟩

end JsonToken

namespace JsonReader

def Frame.Ordered : Frame → Prop
  | .array items => (Json.array items).Ordered
  | .object members _ => (Json.object members).Ordered

/-- What was read so far is in order. -/
def State.Ordered : State → Prop
  | .value outer | .firstItem outer | .firstName outer => ∀ f ∈ outer, f.Ordered
  | .nextName members outer | .colon members _ outer | .afterMember members outer =>
    (Json.object members).Ordered ∧ ∀ f ∈ outer, f.Ordered
  | .afterItem items outer => (Json.array items).Ordered ∧ ∀ f ∈ outer, f.Ordered
  | .done j => j.Ordered

theorem ordered_emptyArray : (Json.array []).Ordered :=
  .array fun _ hj => absurd hj List.not_mem_nil

theorem ordered_emptyObject : (Json.object []).Ordered :=
  .object Fields.ordered_nil fun _ hentry => absurd hentry List.not_mem_nil

theorem ordered_deliver {j : Json} {outer : List Frame} (hj : j.Ordered)
    (houter : ∀ f ∈ outer, f.Ordered) : (deliver j outer).Ordered := by
  cases outer with
  | nil => exact hj
  | cons f outer =>
      obtain ⟨hf, hrest⟩ := List.forall_mem_cons.mp houter
      cases f with
      | array items =>
          exact ⟨.array (List.forall_mem_cons.mpr ⟨hj, Json.ordered_array_iff.mp hf⟩), hrest⟩
      | object members name => exact ⟨Json.Ordered.put hf name hj, hrest⟩

theorem ordered_of_beginValue {outer : List Frame} {t : JsonToken} {s : State}
    (houter : ∀ f ∈ outer, f.Ordered) (ht : t.Ordered) (h : beginValue outer t = some s) :
    s.Ordered := by
  cases t with
  | scalar j => exact Option.some.inj h ▸ ordered_deliver ht houter
  | string text => exact Option.some.inj h ▸ ordered_deliver (.string text) houter
  | beginArray | beginObject =>
      simp only [beginValue] at h
      split at h
      · exact Option.some.inj h ▸ houter
      · cases h
  | _ => cases h

/-- Each token leaves what was read in order: of two members with one name the later has replaced the
other, and a new name was put where it belongs. -/
theorem ordered_of_feed {s s' : State} {t : JsonToken} (hs : s.Ordered) (ht : t.Ordered)
    (h : feed s t = some s') : s'.Ordered := by
  unfold feed at h
  split at h
  · exact ordered_of_beginValue hs ht h
  · exact Option.some.inj h ▸ ordered_deliver ordered_emptyArray hs
  · refine ordered_of_beginValue ?_ ht h
    exact List.forall_mem_cons.mpr ⟨ordered_emptyArray, hs⟩
  · exact Option.some.inj h ▸ ordered_deliver ordered_emptyObject hs
  · exact Option.some.inj h ▸ ⟨ordered_emptyObject, hs⟩
  · exact Option.some.inj h ▸ hs
  · exact Option.some.inj h ▸ List.forall_mem_cons.mpr hs
  · exact Option.some.inj h ▸ List.forall_mem_cons.mpr hs
  · obtain ⟨hitems, houter⟩ := hs
    have hreverse : (Json.array _).Ordered := .array fun j hj =>
      Json.ordered_array_iff.mp hitems j (List.mem_reverse.mp hj)
    exact Option.some.inj h ▸ ordered_deliver hreverse houter
  · exact Option.some.inj h ▸ hs
  · exact Option.some.inj h ▸ ordered_deliver hs.1 hs.2
  · cases h

theorem ordered_of_feeds {s s' : State} {tokens : List JsonToken} (hs : s.Ordered)
    (htokens : ∀ t ∈ tokens, t.Ordered) (h : tokens.foldlM feed s = some s') : s'.Ordered := by
  induction tokens generalizing s with
  | nil => exact Option.some.inj h ▸ hs
  | cons t tokens ih =>
      obtain ⟨ht, htokens⟩ := List.forall_mem_cons.mp htokens
      obtain ⟨next, hnext, hrest⟩ := Option.bind_eq_some_iff.mp h
      exact ih (ordered_of_feed hs ht hnext) htokens hrest

end JsonReader

theorem Json.ordered_of_read {text : String} {j : Json} (h : Json.read text = some j) :
    j.Ordered := by
  obtain ⟨tokens, htokens, h⟩ := Option.bind_eq_some_iff.mp h
  obtain ⟨s, hs, h⟩ := Option.bind_eq_some_iff.mp h
  have hstart : JsonReader.start.Ordered := fun f hf => absurd hf List.not_mem_nil
  have hordered := JsonReader.ordered_of_feeds hstart (JsonToken.ordered_of_all? htokens) hs
  cases s with
  | done read =>
      cases h
      exact hordered
  | _ => cases h

/-! ## Values -/

/-- All objects in a value list their names in ascending order, each once. -/
inductive Value.Ordered : Value → Prop where
  | null : Ordered .null
  | boolean (b : Bool) : Ordered (.boolean b)
  | integer (n : Int64) : Ordered (.integer n)
  | float (x : Binary64) : Ordered (.float x)
  | string (s : String) : Ordered (.string s)
  | array {items : List Value} (hitems : ∀ v ∈ items, Ordered v) : Ordered (.array items)
  | object {fields : List (String × Value)} (hnames : Fields.Ordered fields)
      (hvalues : Fields.All Ordered fields) : Ordered (.object fields)

theorem Fields.names_map {α β : Type} (f : α → β) (fields : Fields α) :
    Fields.names (fields.map fun entry => (entry.1, f entry.2)) = fields.names :=
  List.map_map

namespace Value

theorem ordered_array_iff {items : List Value} : (array items).Ordered ↔ ∀ v ∈ items, v.Ordered := by
  constructor
  · rintro ⟨⟩
    assumption
  · exact .array

theorem ordered_object_iff {fields : List (String × Value)} :
    (object fields).Ordered ↔ Fields.Ordered fields ∧ Fields.All Ordered fields := by
  constructor
  · rintro ⟨⟩
    exact ⟨‹_›, ‹_›⟩
  · exact fun h => .object h.1 h.2

theorem ordered_emptyObject : (object []).Ordered :=
  .object Fields.ordered_nil fun _ hentry => absurd hentry List.not_mem_nil

theorem Ordered.put {fields : Fields Value} (h : (Value.object fields).Ordered) (name : String)
    {v : Value} (hv : v.Ordered) : (Value.object (fields.put name v)).Ordered := by
  obtain ⟨hnames, hvalues⟩ := ordered_object_iff.mp h
  exact .object (hnames.put name v) (hvalues.put name hv)

theorem Ordered.erase {fields : Fields Value} (h : (Value.object fields).Ordered) (name : String) :
    (Value.object (fields.erase name)).Ordered := by
  obtain ⟨hnames, hvalues⟩ := ordered_object_iff.mp h
  exact .object (hnames.erase name) (hvalues.erase name)

/-! ## Reading and writing -/

theorem ofItems_eq_map (items : List Json) : ofItems items = items.map ofJson := by
  induction items with
  | nil => rfl
  | cons j rest ih => rw [ofItems, ih, List.map_cons]

theorem ofMembers_eq_map (members : List (String × Json)) :
    ofMembers members = members.map fun member => (member.1, ofJson member.2) := by
  induction members with
  | nil => rfl
  | cons member rest ih => rw [ofMembers, ih, List.map_cons]

theorem toItems_eq_map (items : List Value) : toItems items = items.map toJson := by
  induction items with
  | nil => rfl
  | cons v rest ih => rw [toItems, ih, List.map_cons]

theorem toMembers_eq_map (fields : List (String × Value)) :
    toMembers fields = fields.map fun field => (field.1, toJson field.2) := by
  induction fields with
  | nil => rfl
  | cons field rest ih => rw [toMembers, ih, List.map_cons]

theorem ordered_ofJson {j : Json} (h : j.Ordered) : (ofJson j).Ordered := by
  induction h with
  | null => exact .null
  | bool b => exact .boolean b
  | number n =>
      unfold ofJson ofNumber
      split
      · exact .integer _
      · exact .float _
  | string s => exact .string s
  | array _ ih =>
      rw [ofJson, ofItems_eq_map]
      refine .array fun v hv => ?_
      obtain ⟨j, hj, rfl⟩ := List.mem_map.mp hv
      exact ih j hj
  | object hnames _ ih =>
      rw [ofJson, ofMembers_eq_map]
      refine .object ?_ fun entry hentry => ?_
      · rw [Fields.Ordered, Fields.names_map]
        exact hnames
      · obtain ⟨member, hmember, rfl⟩ := List.mem_map.mp hentry
        exact ih member hmember

/-- A value that was read is in order, however its text lists the members. -/
theorem ordered_of_read {text : String} {v : Value} (h : Value.read text = some v) :
    v.Ordered := by
  obtain ⟨j, hj, rfl⟩ := Option.map_eq_some_iff.mp h
  exact ordered_ofJson (Json.ordered_of_read hj)

theorem Ordered.toJson {v : Value} (h : v.Ordered) : v.toJson.Ordered := by
  induction h with
  | null => exact .null
  | boolean b => exact .bool b
  | integer n => exact .number _
  | float x =>
      unfold Value.toJson Json.ofBinary64
      split
      · exact .number _
      · exact .null
  | string s => exact .string s
  | array _ ih =>
      rw [Value.toJson, toItems_eq_map]
      refine .array fun j hj => ?_
      obtain ⟨v, hv, rfl⟩ := List.mem_map.mp hj
      exact ih v hv
  | object hnames _ ih =>
      rw [Value.toJson, toMembers_eq_map]
      refine .object ?_ fun member hmember => ?_
      · rw [Fields.Ordered, Fields.names_map]
        exact hnames
      · obtain ⟨field, hfield, rfl⟩ := List.mem_map.mp hmember
        exact ih field hfield

/-! ## Equality -/

theorem fieldsEqual_iff_forall₂ {f g : Fields Value} :
    fieldsEqual f g = true ↔
      List.Forall₂ (fun d e => d.1 = e.1 ∧ equals d.2 e.2 = true) f g := by
  induction f generalizing g with
  | nil => cases g <;> simp [fieldsEqual]
  | cons d f ih =>
      obtain ⟨m, v⟩ := d
      cases g with
      | nil => simp [fieldsEqual]
      | cons e g =>
          obtain ⟨n, w⟩ := e
          rw [fieldsEqual, Bool.and_eq_true, Bool.and_eq_true, decide_eq_true_eq, ih,
            List.forall₂_cons]

/-- Two objects in order are equal exactly if they have equal values under each name. -/
theorem equals_object_iff {f g : Fields Value} (hf : f.Ordered) (hg : g.Ordered) :
    equals (.object f) (.object g) = true ↔
      ∀ name, Option.Rel (fun v w => equals v w = true) (f.get? name) (g.get? name) := by
  rw [equals, fieldsEqual_iff_forall₂]
  exact hf.forall₂_iff (R := fun v w => equals v w = true) hg

end Value

/-! ## Slots -/

/-- What a slot holds is in order, and so is the document once something in order is put into it. -/
structure Slot.Ordered (s : Slot) : Prop where
  held : s.held.Ordered
  fill : ∀ w, w.Ordered → (s.fill w).Ordered

namespace Value

theorem Ordered.childSlot? {v key : Value} {s : Slot} (h : v.Ordered)
    (hslot : v.childSlot? key = some s) : s.Ordered := by
  rcases childSlot?_cases hslot with ⟨fields, name, rfl, -, hheld, hfill⟩ |
    ⟨items, i, rfl, -, hheld, hfill⟩
  · obtain ⟨hnames, hvalues⟩ := ordered_object_iff.mp h
    refine ⟨hvalues.get? hheld, fun w hw => ?_⟩
    rw [hfill]
    refine .object ?_ (hvalues.replace name hw)
    rw [Fields.Ordered, Fields.names_replace]
    exact hnames
  · have hitems := ordered_array_iff.mp h
    refine ⟨hitems _ (List.mem_of_getElem? hheld), fun w hw => ?_⟩
    rw [hfill]
    refine .array fun v hv => ?_
    rcases List.mem_or_eq_of_mem_set hv with hv | rfl
    · exact hitems v hv
    · exact hw

theorem Ordered.slot? {doc : Value} {keys : List Value} {s : Slot} (h : doc.Ordered)
    (hslot : doc.slot? keys = some s) : s.Ordered := by
  induction keys generalizing doc s with
  | nil =>
      obtain rfl : ⟨doc, id⟩ = s := by simpa using hslot
      exact ⟨h, fun w hw => hw⟩
  | cons key keys ih =>
      obtain ⟨first, rest, hfirst, hrest, hheld, hfill⟩ := slot?_cons_eq_some hslot
      have hfirst := h.childSlot? hfirst
      have hrest := ih hfirst.held hrest
      refine ⟨hheld ▸ hrest.held, fun w hw => ?_⟩
      rw [hfill]
      exact hfirst.fill _ (hrest.fill w hw)

end Value

end DocPath
