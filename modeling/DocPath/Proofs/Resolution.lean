import DocPath.Proofs.Value.Slots
import DocPath.Resolution

/-!
# What a resolution records

A walk keeps four things apart: the node it stands on, the node it came from, the last key
and all keys. They never disagree (`Walk.Tracks`), whether the walk was finished or given
up, because every step moves all four at once and giving up moves none. How far the walk
gets is decided by the keys of the path alone (`Walk.along_progress`): it takes steps as
long as it stands on something.
-/

namespace DocPath

/-- The keys that the steps of a path stand for, those behind a failure included. -/
def Path.effectiveKeys (path : Path) (scope : Scope) (document : Value) : List Value :=
  path.map (Segment.keyIn scope document)

/-- What a resolution has to do with the keys of its path: the keys that it recorded lead to
the node and, but for the last, to its parent, for reading (`node`, `parent`) and for writing
(`nodeSlot`, `parentSlot`). It fails exactly if some part of the path that is not all of it
leads nowhere (`fails_iff`); then the keys up to the first step that found nothing are
recorded (`failed`), else all of them. -/
structure Resolution.LeadsBack (r : Resolution) (document : Value) (keys : List Value) :
    Prop where
  node : r.resolvedKeys.foldlM Value.child? document = r.node
  parent : r.parentKeys.foldlM Value.child? document = some r.parent
  lastKey : r.lastKey = r.resolvedKeys.getLast?
  nodeSlot : (document.slot? r.resolvedKeys).map Slot.held = r.node
  parentSlot : (document.slot? r.parentKeys).map Slot.held = some r.parent
  fails_iff : r.ok = false ↔ ∃ m < keys.length, (keys.take m).foldlM Value.child? document = none
  failed : r.ok = false → r.node = none ∧
    ∃ n < keys.length, r.resolvedKeys = keys.take n ∧
      (keys.take n).foldlM Value.child? document = none ∧
      ∀ m < n, ((keys.take m).foldlM Value.child? document).isSome
  complete : r.ok = true → r.resolvedKeys = keys

namespace Walk

/-- **The invariant of a walk.** The keys lead from the root to the node, all but the last
of them to its parent. -/
structure Tracks (root : Value) (w : Walk) : Prop where
  node : root.find? w.keys = w.node
  parent : root.find? w.keys.dropLast = some w.parent
  lastKey : w.lastKey = w.keys.getLast?

theorem tracks_start (root : Value) : (start root).Tracks root := ⟨rfl, rfl, rfl⟩

theorem Tracks.step {root node : Value} {w : Walk} (h : w.Tracks root)
    (hnode : w.node = some node) (key : Value) : (w.step node key).Tracks root := by
  have hhere : root.find? w.keys = some node := h.node.trans hnode
  refine ⟨?_, ?_, ?_⟩
  · show root.find? (w.keys ++ [key]) = node.child? key
    rw [Value.find?_append, hhere]
    exact Option.bind_fun_some (node.child? key)
  · show root.find? (w.keys ++ [key]).dropLast = some node
    rw [List.dropLast_concat]
    exact hhere
  · show some key = (w.keys ++ [key]).getLast?
    rw [List.getLast?_concat]

theorem Tracks.along {scope : Scope} {root : Value} {path : Path} {w : Walk}
    (h : w.Tracks root) : (Walk.along scope root path w).Tracks root := by
  induction path generalizing w with
  | nil => simpa [Walk.along] using h
  | cons segment rest ih =>
      rw [Walk.along]
      cases hnode : w.node with
      | none => exact ⟨h.node.trans hnode, h.parent, h.lastKey⟩
      | some node => exact ih (h.step hnode _)

/-- **Progress of a walk.** It takes the first `n` steps of the path; each of them starts
at something, and if the walk does not reach the end, the last of them led nowhere. -/
theorem along_progress {scope : Scope} {root : Value} {path : Path} {w : Walk}
    (h : w.Tracks root) (hok : w.ok = true) :
    ∃ n ≤ path.length,
      (along scope root path w).keys = w.keys ++ (path.effectiveKeys scope root).take n ∧
      (∀ m < n, (root.find? (w.keys ++ (path.effectiveKeys scope root).take m)).isSome) ∧
      ((along scope root path w).ok = true ↔ n = path.length) ∧
      (n < path.length → (along scope root path w).node = none) := by
  -- on the path, for every walk: the keys behind the first step are counted from there
  induction path generalizing w with
  | nil => exact ⟨0, Nat.le_refl 0, by simp [along, hok]⟩
  | cons segment rest ih =>
      rw [along]
      cases hnode : w.node with
      | none => exact ⟨0, Nat.zero_le _, by simp⟩
      | some node =>
          obtain ⟨n, hn, hkeys, hfound, hend, hnone⟩ :=
            ih (h.step hnode (segment.keyIn scope root)) hok
          refine ⟨n + 1, Nat.succ_le_succ hn, ?_, ?_, ?_, ?_⟩
          · simpa [Path.effectiveKeys, step] using hkeys
          · intro m hm
            cases m with
            | zero => simp [h.node, hnode]
            | succ m =>
                have hbehind := hfound m (Nat.lt_of_succ_lt_succ hm)
                simpa [Path.effectiveKeys, step] using hbehind
          · simpa using hend
          · intro hlt
            exact hnone (Nat.lt_of_succ_lt_succ hlt)

end Walk

/-! ## Resolutions -/

namespace Path

variable (path : Path) (scope : Scope) (document : Value)

theorem resolve_tracks :
    (Walk.along scope document path (Walk.start document)).Tracks document :=
  (Walk.tracks_start document).along

theorem find?_resolvedKeys :
    document.find? (path.resolve scope document).resolvedKeys =
      (path.resolve scope document).node :=
  (path.resolve_tracks scope document).node

theorem find?_parentKeys :
    document.find? (path.resolve scope document).parentKeys =
      some (path.resolve scope document).parent :=
  (path.resolve_tracks scope document).parent

theorem resolve_progress :
    ∃ n ≤ path.length,
      (path.resolve scope document).resolvedKeys =
        (path.effectiveKeys scope document).take n ∧
      (∀ m < n, (document.find? ((path.effectiveKeys scope document).take m)).isSome) ∧
      ((path.resolve scope document).ok = true ↔ n = path.length) ∧
      (n < path.length → (path.resolve scope document).node = none) :=
  Walk.along_progress (Walk.tracks_start document) rfl

/-- A resolution fails if and only if some step is to be taken out of nothing. -/
theorem resolve_ok_eq_false_iff :
    (path.resolve scope document).ok = false ↔
      ∃ m < path.length, document.find? ((path.effectiveKeys scope document).take m) = none := by
  obtain ⟨n, hn, hkeys, hfound, hend, hnone⟩ := path.resolve_progress scope document
  constructor
  · intro hok
    have hlt : n < path.length := by
      refine Nat.lt_of_le_of_ne hn fun he => ?_
      simp [hend.mpr he] at hok
    refine ⟨n, hlt, ?_⟩
    rw [← hkeys, find?_resolvedKeys]
    exact hnone hlt
  · rintro ⟨m, hm, hnowhere⟩
    rw [← Bool.not_eq_true]
    intro hok
    have hsome := hfound m (hend.mp hok ▸ hm)
    rw [hnowhere] at hsome
    exact Bool.noConfusion hsome

/-- A walk that found something was walked to its end. -/
theorem ok_of_node {node : Value} (h : (path.resolve scope document).node = some node) :
    (path.resolve scope document).ok = true := by
  obtain ⟨n, hn, _, _, hend, hnone⟩ := path.resolve_progress scope document
  refine hend.mpr (Nat.le_antisymm hn (Nat.le_of_not_lt fun hlt => ?_))
  rw [hnone hlt] at h
  cases h

/-- **The recorded keys lead back**, to the node and to its parent, whatever the path, and
they end where the path first leads nowhere. -/
theorem resolve_keys_lead_back :
    (path.resolve scope document).LeadsBack document (path.effectiveKeys scope document) := by
  have hlength : (path.effectiveKeys scope document).length = path.length := List.length_map _
  constructor
  case lastKey => exact (path.resolve_tracks scope document).lastKey
  case complete =>
    intro hok
    obtain ⟨n, _, hkeys, _, hend, _⟩ := path.resolve_progress scope document
    rw [hkeys, hend.mp hok, ← hlength]
    exact List.take_length
  all_goals simp only [← Value.find?_eq_foldlM, Value.slot?_held, hlength]
  case node | nodeSlot => exact path.find?_resolvedKeys scope document
  case parent | parentSlot => exact path.find?_parentKeys scope document
  case fails_iff => exact path.resolve_ok_eq_false_iff scope document
  case failed =>
    intro hok
    obtain ⟨n, hn, hkeys, hfound, hend, hnone⟩ := path.resolve_progress scope document
    have hlt : n < path.length := by
      refine Nat.lt_of_le_of_ne hn fun he => ?_
      exact Bool.noConfusion (hok.symm.trans (hend.mpr he))
    refine ⟨hnone hlt, n, hlt, hkeys, ?_, hfound⟩
    rw [← hkeys, find?_resolvedKeys]
    exact hnone hlt

end Path

/-! ## Slots for an edit -/

theorem Resolution.container?_eq_some {r : Resolution} {container : Value} :
    r.container? = some container ↔ r.ok = true ∧ r.parent = container := by
  unfold container?
  split <;> simp_all

namespace CompiledPath

variable {path : CompiledPath} {scope : Scope} {document : Value}

/-- The slot that the parent keys open holds the container that was looked at before. -/
theorem exists_slot?_container {container : Value}
    (h : (path.resolve scope document).container? = some container) :
    ∃ fill, document.slot? (path.resolve scope document).parentKeys = some ⟨container, fill⟩ := by
  have hfound := (path.path.find?_parentKeys scope document).trans
    (congrArg some (Resolution.container?_eq_some.mp h).2)
  obtain ⟨⟨held, fill⟩, hslot, rfl⟩ := Value.exists_slot?_of_find? hfound
  exact ⟨fill, hslot⟩

/-- The slot that all keys open holds the node. -/
theorem exists_slot?_node {node : Value} (h : (path.resolve scope document).node = some node) :
    ∃ fill, document.slot? (path.resolve scope document).resolvedKeys = some ⟨node, fill⟩ := by
  have hfound := (path.path.find?_resolvedKeys scope document).trans h
  obtain ⟨⟨held, fill⟩, hslot, rfl⟩ := Value.exists_slot?_of_find? hfound
  exact ⟨fill, hslot⟩

end CompiledPath

end DocPath
