import TemplateDump.Output
import TemplateDump.Tree.Basic

/-!
# Dumps of trees

The dump of a tree has a line for each node, the line of a node before those of its children, and
stops at the first unknown node. The dump of several trees is one dump after the other
(`dumpAll_eq_concat`), and can be cut anywhere between two of them (`dumpAll_append`).
-/

namespace TemplateDump.Tree

mutual
/-- Writes the lines of a tree whose root is below `depth` other nodes. -/
def dump (setup : Setup) (depth : Nat) : Tree → Output
  | absent => .empty
  | node head children =>
    setup.writeLine depth ⟨head, children⟩ ++ dumpAll setup (depth + 1) children

/-- Writes the lines of several trees, one tree after the other. -/
def dumpAll (setup : Setup) (depth : Nat) : List Tree → Output
  | [] => .empty
  | t :: rest => t.dump setup depth ++ dumpAll setup depth rest
end

/-- The dumps of several trees follow one another. -/
theorem dumpAll_eq_concat (setup : Setup) (depth : Nat) (trees : List Tree) :
    dumpAll setup depth trees = .concat (trees.map (dump setup depth)) := by
  induction trees with
  | nil => rfl
  | cons t rest ih => rw [dumpAll, ih]; rfl

theorem dumpAll_append (setup : Setup) (depth : Nat) (first second : List Tree) :
    dumpAll setup depth (first ++ second) =
      dumpAll setup depth first ++ dumpAll setup depth second := by
  induction first with
  | nil => rw [List.nil_append, dumpAll, Output.empty_append]
  | cons t rest ih => rw [List.cons_append, dumpAll, dumpAll, ih, Output.append_assoc]

/-- Writes the line of the root alone, below `depth` other nodes and without its end. -/
def writeRoot (setup : Setup) (depth : Nat) : Tree → Output
  | absent => .empty
  | node head children => setup.writeNode depth ⟨head, children⟩

/-- A node is written either whole or not at all. -/
theorem chars_writeRoot_of_stopped {setup : Setup} {depth : Nat} {tree : Tree}
    (h : (tree.writeRoot setup depth).error ≠ none) : (tree.writeRoot setup depth).chars = [] := by
  cases tree with
  | absent => rfl
  | node head children => exact Setup.chars_writeNode_of_stopped h

/-- Whether the root can be written does not depend on its depth. -/
theorem error_writeRoot_depth (setup : Setup) (depth : Nat) (tree : Tree) :
    (tree.writeRoot setup depth).error = (tree.writeRoot setup 0).error := by
  cases tree with
  | absent => rfl
  | node head children => exact setup.error_writeNode_depth depth _

end TemplateDump.Tree
