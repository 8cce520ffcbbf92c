import TemplateDump.Node.Basic

/-!
# Trees

A tree is a node with its subtrees in order. A subtree may be absent, which leaves a gap among the
children of its node. What is said of a node is said of the node with all that is below it: whoever
is given a node can go down from there.

`Tree.listing` lists the nodes of a tree with their depths in the order of a walk that takes each
node before its children; `Tree.visits` also lists the gaps. `listingAll_append` cuts the listing of
several trees anywhere between two of them.
-/

namespace TemplateDump

/-- A tree, which may be absent. -/
inductive Tree where
  | absent
  | node (head : Head) (children : List Tree)

/-! ## Nodes -/

/-- A node of a tree with what is below it. -/
structure Node extends Annotated (Payload Token) where
  children : List Tree

/-- An extension node as renderers and trust policies see it. -/
structure ExtensionNode extends Annotated (Extension Token) where
  children : List Tree

/-- Exchanges the contents for those of an extension and keeps all else. -/
def Node.withPayload (node : Node) (e : Extension Token) : ExtensionNode :=
  ⟨node.toAnnotated.withPayload e, node.children⟩

@[simp] theorem Node.payload_withPayload (node : Node) (e : Extension Token) :
    (node.withPayload e).payload = e := rfl

namespace Tree

/-! ## Walks -/

mutual
/-- The nodes with their depths, each node before its children. The root has depth `depth`. -/
def listing (depth : Nat) : Tree → List (Nat × Node)
  | absent => []
  | node head children => (depth, ⟨head, children⟩) :: listingAll (depth + 1) children

/-- The nodes of several trees with the same depth of their roots, one tree after the other. -/
def listingAll (depth : Nat) : List Tree → List (Nat × Node)
  | [] => []
  | t :: rest => t.listing depth ++ listingAll depth rest
end

mutual
/-- What a walk meets: nodes, each before its children, and gaps. -/
def visits : Tree → List (Option Node)
  | absent => [none]
  | node head children => some ⟨head, children⟩ :: visitsAll children

/-- What a walk over several trees meets. -/
def visitsAll : List Tree → List (Option Node)
  | [] => []
  | t :: rest => t.visits ++ visitsAll rest
end

/-- Trees behind one another are listed behind one another. -/
theorem listingAll_append (depth : Nat) (first second : List Tree) :
    listingAll depth (first ++ second) = listingAll depth first ++ listingAll depth second := by
  induction first with
  | nil => simp [listingAll]
  | cons t rest ih => simp [listingAll, ih]

/-! ## Building trees -/

/-- The token at the root, if the root holds one. -/
def rootToken? : Tree → Option Token
  | absent => none
  | node head _ => head.payload.token?

/-- The source span of the root, if it has one. -/
def rootSource? : Tree → Option SourceSpan
  | absent => none
  | node head _ => head.source

/-- A reference whose identifier token is at the root of a tree: the tree becomes its first child,
and unless the reference has a source span of its own it takes that of the token. -/
def ofRef (identifier : Tree) (capture : Option String) (source : Option SourceSpan)
    (diagnostics : List Diagnostic) (children : List Tree) : Tree :=
  let payload := .extension (.component (.ref identifier.rootToken? capture))
  match identifier with
  | absent => node ⟨payload, source, diagnostics⟩ children
  | token => node ⟨payload, source.or token.rootSource?, diagnostics⟩ (token :: children)

end Tree

end TemplateDump
