import TemplateDump.Proofs.Session.Walk
import TemplateDump.Tree.Dump

/-!
# Dumps of stores and of trees

The dump of a node in a store is that of the tree to which the node unfolds
(`dumpLevels_eq_dump_unfold`), and so is what any serializer writes for it, however it was used
before (`serialize_eq_dump_unfold`).
-/

namespace TemplateDump

namespace Store

/-- The dump of a node is that of the tree to which it unfolds. -/
theorem dumpLevels_eq_dump_unfold (store : Store) (setup : Setup) (levels depth : Nat)
    (root : Option NodeId) :
    store.dumpLevels setup levels depth root = (store.unfold levels root).dump setup depth := by
  induction levels generalizing depth root with
  | zero => rfl
  | succ levels ih =>
    cases hentry : root.bind store.get? with
    | none =>
      rw [unfold_succ_of_none hentry, dumpLevels, hentry]
      rfl
    | some entry =>
      obtain ⟨id, rfl, hget⟩ := Option.bind_eq_some_iff.1 hentry
      have hchildren : entry.children.map (store.dumpLevels setup levels (depth + 1)) =
          (entry.children.map (store.unfold levels)).map (Tree.dump setup (depth + 1)) := by
        rw [List.map_map]
        exact List.map_congr_left fun child _ => ih (depth + 1) child
      rw [unfold_succ_of_some hentry, store.dumpLevels_succ _ _ _ hget, Tree.dump,
        Tree.dumpAll_eq_concat, hchildren]

end Store

/-- A serializer writes the dump of the tree to which the node unfolds. -/
theorem Serializer.serialize_eq_dump_unfold (serializer : Serializer) (registry : Registry)
    {store : Store} (h : store.size ≤ UInt32.size) (root : Option NodeId) :
    (serializer.serialize registry store root).1 =
      (store.unfold store.size root).dump ⟨registry, serializer.options⟩ 0 := by
  rw [serialize_eq_new, serialize_new_eq_dump _ _ h]
  exact store.dumpLevels_eq_dump_unfold _ _ _ _

end TemplateDump
