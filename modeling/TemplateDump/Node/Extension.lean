import TemplateDump.Node.Construct

/-!
# Extensions

Feature packages define node classes of their own. Such a node has a label and the module that
defines it. The package of components defines six classes; the language itself defines one, for
directives at design time; any other class is foreign and shows itself only through the fields
that it offers to renderers.

The types here have a parameter for the way in which a reference names its identifier token: in a
tree that is the token, in a store it is the identity of the token's node.
-/

namespace TemplateDump

/-! ## Modules -/

/-- The module of the template language. -/
def languageModule : String := "Stencil.Language"

/-- The module of the package of components. -/
def componentsModule : String := "Stencil.Components"

/-! ## Components -/

/-- The six classes of the package of components. -/
inductive ComponentKind where
  | htmlElement
  | htmlBlock
  | component
  | componentAttribute
  | routeAttribute
  | ref
deriving DecidableEq, Inhabited

/-- The label of the nodes of a class. -/
def ComponentKind.label : ComponentKind → String
  | .htmlElement => "HtmlElementIntermediateNode"
  | .htmlBlock => "HtmlBlockIntermediateNode"
  | .component => "ComponentExtensionNode"
  | .componentAttribute => "ComponentAttributeExtensionNode"
  | .routeAttribute => "RouteAttributeExtensionNode"
  | .ref => "RefExtensionNode"

/-- The six classes, in the order in which the package registers them. -/
def ComponentKind.all : List ComponentKind :=
  [.htmlElement, .htmlBlock, .component, .componentAttribute, .routeAttribute, .ref]

/-- What a node of a component class holds. A reference holds its identifier token and, where it
captures a component and not an element, the name of the component's type. -/
inductive Component (τ : Type) where
  | htmlElement (tagName : String)
  | htmlBlock (content : String)
  | component (tagName : String) (typeName : String)
  | componentAttribute (attributeName : String) (propertyName : String) (style : QuoteStyle)
  | routeAttribute (template : String)
  | ref (identifier : Option τ) (capture : Option String)
deriving DecidableEq

/-- The class of a component node. -/
def Component.kind {τ : Type} : Component τ → ComponentKind
  | .htmlElement _ => .htmlElement
  | .htmlBlock _ => .htmlBlock
  | .component _ _ => .component
  | .componentAttribute _ _ _ => .componentAttribute
  | .routeAttribute _ => .routeAttribute
  | .ref _ _ => .ref

/-- Names the identifier token in another way. Where the new way has no name for it, the reference
has no token. -/
def Component.bindToken {τ υ : Type} (f : τ → Option υ) : Component τ → Component υ
  | .htmlElement tagName => .htmlElement tagName
  | .htmlBlock content => .htmlBlock content
  | .component tagName typeName => .component tagName typeName
  | .componentAttribute attributeName propertyName style =>
    .componentAttribute attributeName propertyName style
  | .routeAttribute template => .routeAttribute template
  | .ref identifier capture => .ref (identifier.bind f) capture

/-! ## Extensions -/

/-- A content field. A field without content is written like an empty one. -/
abbrev Field := Option String

/-- What an extension node holds. -/
inductive Extension (τ : Type) where
  | component (component : Component τ)
  | designTimeDirective
  | foreign (label : String) (moduleName : String) (fields : List Field)
deriving DecidableEq

namespace Extension

variable {τ υ : Type}

/-- The label of an extension node. -/
def label : Extension τ → String
  | component c => c.kind.label
  | designTimeDirective => "DesignTimeDirectiveIntermediateNode"
  | foreign label _ _ => label

/-- The module that defines an extension node. -/
def moduleName : Extension τ → String
  | component _ => componentsModule
  | designTimeDirective => languageModule
  | foreign _ moduleName _ => moduleName

/-- The fields that a foreign node offers to renderers. -/
def offeredFields : Extension τ → List Field
  | foreign _ _ fields => fields
  | _ => []

/-- Names the identifier token in another way. -/
def bindToken (f : τ → Option υ) : Extension τ → Extension υ
  | component c => component (c.bindToken f)
  | designTimeDirective => designTimeDirective
  | foreign label moduleName fields => foreign label moduleName fields

end Extension

end TemplateDump
