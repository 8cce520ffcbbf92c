import TemplateDump.Store.Basic
import TemplateDump.Tree.Basic

/-!
# Unfolding a store

What can be reached from a node of a store in some number of steps unfolds to a tree, in which a
shared node stands once for each way that leads to it. No way through a store without cycles is
longer than the store has nodes, so that so many steps reach all that there is below a node.
-/

namespace TemplateDump.Store

/-- The tree of what can be reached from a node in at most `levels` steps, counting the one to the
node itself. -/
def unfold (store : Store) : Nat → Option NodeId → Tree
  | 0, _ => .absent
  | levels + 1, root =>
    match root.bind store.get? with
    | none => .absent
    | some entry => .node (store.view entry.node) (entry.children.map (store.unfold levels))

theorem unfold_succ_of_none {store : Store} {levels : Nat} {root : Option NodeId}
    (h : root.bind store.get? = none) : store.unfold (levels + 1) root = .absent := by
  rw [unfold, h]

theorem unfold_succ_of_some {store : Store} {levels : Nat} {root : Option NodeId} {entry : Entry}
    (h : root.bind store.get? = some entry) :
    store.unfold (levels + 1) root =
      .node (store.view entry.node) (entry.children.map (store.unfold levels)) := by
  rw [unfold, h]

end TemplateDump.Store
