import TemplateDump.Tree.Basic

/-!
# Renderers

A renderer says which fields a dump shows of an extension node. The package of components has a
renderer for each of its six classes; it reads what nodes of that class hold and has nothing to
say about other nodes. Any other package brings a function of its own.

`ComponentKind.read?_isSome_iff` says which nodes the renderer of a class can read.
-/

namespace TemplateDump

/-! ## Reading components -/

/-- What a reference shows in the place of a component's type where it captures an element. -/
def elementCapture : String := "Element"

/-- The fields of a component node, in order. -/
def Component.fields : Component Token → List Field
  | .htmlElement tagName => [some tagName]
  | .htmlBlock content => [some content]
  | .component tagName typeName => [some tagName, some typeName]
  | .componentAttribute attributeName propertyName _ => [some attributeName, some propertyName]
  | .routeAttribute template => [some template]
  | .ref identifier capture => [identifier.map Token.content, some (capture.getD elementCapture)]

/-- The fields of a node of this class; a node of another class cannot be read. -/
def ComponentKind.read? (kind : ComponentKind) : Extension Token → Option (List Field)
  | .component c => if c.kind = kind then some c.fields else none
  | _ => none

/-- A node can be read as a class exactly if it is a component of that class. -/
theorem ComponentKind.read?_isSome_iff {kind : ComponentKind} {e : Extension Token} :
    (kind.read? e).isSome ↔ ∃ c, e = .component c ∧ c.kind = kind := by
  cases e with
  | component c =>
    by_cases h : c.kind = kind
    · simp [ComponentKind.read?, h]
    · simp [ComponentKind.read?, h]
  | designTimeDirective => simp [ComponentKind.read?]
  | foreign label moduleName fields => simp [ComponentKind.read?]

/-- A component node is read as its own class. -/
@[simp] theorem ComponentKind.read?_self (c : Component Token) :
    c.kind.read? (.component c) = some c.fields := by
  simp [ComponentKind.read?]

/-! ## Renderers -/

/-- A renderer: a function of a package, or the one for a class of components. -/
inductive Renderer where
  | custom (fields : ExtensionNode → List Field)
  | component (kind : ComponentKind)

/-- The fields that a renderer gives for a node. The one for a class of components gives none for a
node that it cannot read. -/
def Renderer.apply : Renderer → ExtensionNode → List Field
  | .custom fields, node => fields node
  | .component kind, node => (kind.read? node.payload).getD []

end TemplateDump
