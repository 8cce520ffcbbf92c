import TemplateDump.Registry.Renderer

/-!
# The registry of extension nodes

A registry knows shapes of extension nodes. A shape is registered under a label, and the first
registration of a label stays. It speaks for the nodes that have its label and come from its
module. A node for which no shape speaks is shown without fields if it is trusted; it is trusted if
the policy says so or, without a policy, if its module is among the trusted ones. All other nodes
are unknown, which stops a dump.

`lookup_register` and `isTrustedModule_trust` say what the operations do to the two views of a
registry.
-/

namespace TemplateDump

/-! ## Shapes -/

/-- Where a shape comes from: it is a detail of the compiler, which is shown without fields, or it
belongs to a package, which may have a renderer for it. -/
inductive ShapeOrigin where
  | internal
  | external (renderer : Option Renderer)

/-- The renderer of a shape, if it has one. -/
def ShapeOrigin.renderer? : ShapeOrigin → Option Renderer
  | .internal => none
  | .external renderer => renderer

/-- A registered shape of extension nodes. -/
structure Shape where
  label : String
  moduleName : String
  origin : ShapeOrigin

/-! ## The registry -/

/-- A decision on which unregistered nodes are trusted. -/
abbrev TrustPolicy := ExtensionNode → Bool

/-- The registered shapes in order of registration, and what is trusted without a shape. -/
structure Registry where
  shapes : List Shape := []
  trustedModules : List String := [languageModule]
  policy : Option TrustPolicy := none

/-- How a node is shown: with the fields that a renderer gives, without fields, or not at all. -/
inductive Resolution where
  | rendered (renderer : Renderer)
  | basic
  | unknown

namespace Registry

/-- The number of shapes. -/
def size (registry : Registry) : Nat :=
  registry.shapes.length

/-- The shape registered under a label. -/
def lookup (registry : Registry) (label : String) : Option Shape :=
  registry.shapes.find? (·.label == label)

/-- Registers a shape and says whether it was the first with its label; otherwise nothing
changes. -/
def register (registry : Registry) (shape : Shape) : Bool × Registry :=
  if (registry.lookup shape.label).isSome then (false, registry)
  else (true, { registry with shapes := registry.shapes ++ [shape] })

/-- Trusts the nodes of a module. -/
def trust (registry : Registry) (moduleName : String) : Registry :=
  { registry with trustedModules := registry.trustedModules ++ [moduleName] }

/-- Trusts the nodes of some modules. -/
def trustAll (registry : Registry) (moduleNames : List String) : Registry :=
  moduleNames.foldl trust registry

/-- Whether a module is trusted. -/
def isTrustedModule (registry : Registry) (moduleName : String) : Bool :=
  registry.trustedModules.contains moduleName

/-- Whether a node is trusted: by the policy if there is one, and otherwise by its module. -/
def isTrusted (registry : Registry) (node : ExtensionNode) : Bool :=
  match registry.policy with
  | some policy => policy node
  | none => registry.isTrustedModule node.payload.moduleName

/-- The shape that speaks for an extension: the one under its label, if it is of its module. -/
def shapeOf? (registry : Registry) (e : Extension Token) : Option Shape :=
  (registry.lookup e.label).filter (·.moduleName == e.moduleName)

/-- How a node is shown. -/
def resolve (registry : Registry) (node : ExtensionNode) : Resolution :=
  match registry.shapeOf? node.payload with
  | some shape =>
    match shape.origin.renderer? with
    | some renderer => .rendered renderer
    | none => .basic
  | none => if registry.isTrusted node then .basic else .unknown

/-! ## Components -/

/-- The shape of a class of components. -/
def componentShape (kind : ComponentKind) : Shape :=
  ⟨kind.label, componentsModule, .external (some (.component kind))⟩

/-- Registers the six classes of components. -/
def registerComponents (registry : Registry) : Registry :=
  ComponentKind.all.foldl (fun r kind => (r.register (componentShape kind)).2) registry

/-! ## The views after an operation -/

/-- After a registration a label has the shape it had, or else the new one if it is its label. -/
theorem lookup_register (registry : Registry) (shape : Shape) (label : String) :
    (registry.register shape).2.lookup label =
      (registry.lookup label).or (if shape.label = label then some shape else none) := by
  unfold register
  by_cases hl : shape.label = label
  · subst hl
    cases h : registry.lookup shape.label with
    | none =>
      rw [lookup] at h
      simp [lookup, List.find?_append, h]
    | some s => simp [h]
  · by_cases hs : (registry.lookup shape.label).isSome = true
    · rw [if_pos hs]
      simp [hl]
    · rw [if_neg hs]
      simp [lookup, List.find?_append, hl]

/-- A shape that is found under a label has that label. -/
theorem label_of_lookup {registry : Registry} {label : String} {shape : Shape}
    (h : registry.lookup label = some shape) : shape.label = label := by
  simpa using List.find?_some h

/-- After a module is trusted, that module and the ones before are. -/
theorem isTrustedModule_trust (registry : Registry) (moduleName other : String) :
    (registry.trust moduleName).isTrustedModule other =
      (registry.isTrustedModule other || other == moduleName) := by
  simp [trust, isTrustedModule, List.contains_eq_mem, Bool.decide_or, BEq.beq]

end Registry

end TemplateDump
