import TemplateDump.Store.Unfold
import TemplateDump.Tree.Dump

/-!
# Dumps of stores

The dump of a node in a store follows the children wherever they lead, so that a shared node is
written once for each way that leads to it. No way through a store without cycles is longer than
the store has nodes, which bounds the walk.
-/

namespace TemplateDump

namespace Store

/-- Writes the lines of what can be reached from a node in at most `levels` steps, counting the one
to the node itself. The node is below `depth` others. -/
def dumpLevels (store : Store) (setup : Setup) : Nat → Nat → Option NodeId → Output
  | 0, _, _ => .empty
  | levels + 1, depth, root =>
    match root.bind store.get? with
    | none => .empty
    | some entry =>
      let below := entry.children.map (store.unfold levels)
      (setup.writeLine depth ⟨store.view entry.node, below⟩).andThen fun _ =>
        .concatMap (store.dumpLevels setup levels (depth + 1)) entry.children

/-- The line of a node is followed by what its children lead to. -/
theorem dumpLevels_succ (store : Store) (setup : Setup) (levels depth : Nat) {id : NodeId}
    {entry : Entry} (h : store.get? id = some entry) :
    store.dumpLevels setup (levels + 1) depth (some id) =
      setup.writeLine depth ⟨store.view entry.node, entry.children.map (store.unfold levels)⟩ ++
        .concat (entry.children.map (store.dumpLevels setup levels (depth + 1))) := by
  rw [dumpLevels, Option.bind_some, h, ← Output.concatMap_eq_concat_map]
  exact Output.andThen_eq_append _ _

/-- Writes the lines of all that can be reached from a node. -/
def dump (store : Store) (setup : Setup) (root : Option NodeId) : Output :=
  store.dumpLevels setup store.size 0 root

/-- Writes the line of a node alone, below `depth` others and without its end. -/
def writeRoot (store : Store) (setup : Setup) (depth : Nat) (root : Option NodeId) : Output :=
  (store.unfold store.size root).writeRoot setup depth

end Store

end TemplateDump
