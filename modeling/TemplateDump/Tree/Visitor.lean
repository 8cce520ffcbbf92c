import TemplateDump.Tree.Basic

/-!
# Visitors

A visitor gives a result for each node by the rule for its kind, or by a common rule where the kind
has none, and a fixed result for a gap. A walk collects the results in the order in which it meets
nodes and gaps.
-/

namespace TemplateDump

/-- Rules by kind, a common rule for the other kinds, and the result for a gap. -/
structure Visitor (ρ : Type) where
  gap : ρ
  common : Node → ρ
  rule : Kind → Option (Node → ρ) := fun _ => none

namespace Visitor

variable {ρ : Type}

/-- The result for a node or a gap. -/
def visit (visitor : Visitor ρ) : Option Node → ρ
  | none => visitor.gap
  | some node => ((visitor.rule node.payload.kind).getD visitor.common) node

/-- The results of a walk. -/
def walk (visitor : Visitor ρ) (tree : Tree) : List ρ :=
  tree.visits.map visitor.visit

/-! ## Some visitors -/

/-- Records the label of each node, but the content of tokens, and marks tokens and extensions. -/
def recorder : Visitor String where
  gap := ""
  common := fun node => node.payload.label
  rule := fun kind =>
    match kind with
    | .token => some fun node => "token:" ++ (node.payload.token?.elim "" Token.content)
    | .extension => some fun node => "ext:" ++ node.payload.label
    | _ => none

/-- Records the label of each node with the same mark. -/
def labelRecorder : Visitor String where
  gap := ""
  common := fun node => "default:" ++ node.payload.label

/-- Records nothing. -/
def silent : Visitor String where
  gap := ""
  common := fun _ => ""

/-- Counts one for a token. -/
def tokenCounter : Visitor Nat where
  gap := 0
  common := fun _ => 0
  rule := fun kind => if kind = .token then some fun _ => 1 else none

end Visitor

end TemplateDump
