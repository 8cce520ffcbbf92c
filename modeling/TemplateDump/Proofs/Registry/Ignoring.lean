import TemplateDump.Output
import TemplateDump.Proofs.Registry.Registering

/-!
# What renderers and the policy do not look at

A renderer is given a node with all that is below it, and so is the policy.  What the line of a node
may depend on is up to them: `Ignores` says that a change to nodes makes no difference to them, and
then it makes none to the fields of a node (`Ignores.fields?_eq`).  Where they look at what a node
itself holds and at nothing below it, nodes that hold the same are written alike
(`IgnoresChildren.writeNode_congr`).
-/

namespace TemplateDump

namespace Registry

/-- Neither the renderers nor the policy see a change to a node. -/
structure Ignores (registry : Registry) (change : ExtensionNode → ExtensionNode) : Prop where
  apply_renderer : ∀ shape ∈ registry.shapes, ∀ renderer ∈ shape.origin.renderer?,
    ∀ node : ExtensionNode, renderer.apply (change node) = renderer.apply node
  apply_policy : ∀ policy ∈ registry.policy,
    ∀ node : ExtensionNode, policy (change node) = policy node

section

variable {registry : Registry} {change : ExtensionNode → ExtensionNode}

theorem Ignores.isTrusted_eq (h : registry.Ignores change) {node : ExtensionNode}
    (hpayload : (change node).payload = node.payload) :
    registry.isTrusted (change node) = registry.isTrusted node := by
  cases hpolicy : registry.policy with
  | none => simp only [isTrusted, hpolicy, hpayload]
  | some policy =>
    simp only [isTrusted, hpolicy]
    exact h.apply_policy policy hpolicy node

theorem Ignores.resolve_eq (h : registry.Ignores change) {node : ExtensionNode}
    (hpayload : (change node).payload = node.payload) :
    registry.resolve (change node) = registry.resolve node := by
  rw [resolve, resolve, h.isTrusted_eq hpayload, hpayload]

/-- A node has the same fields after such a change, if it has the same contents. -/
theorem Ignores.fields?_eq (h : registry.Ignores change) {node changed : Node}
    (hpayload : changed.payload = node.payload)
    (hchange : ∀ e, changed.withPayload e = change (node.withPayload e)) :
    registry.fields? changed = registry.fields? node := by
  cases hnode : node.payload with
  | construct c =>
    rw [hnode] at hpayload
    simp only [fields?, hpayload, hnode]
  | extension e =>
    rw [hnode] at hpayload
    have hresolve := h.resolve_eq (congrArg (·.payload) (hchange e).symm)
    simp only [fields?, hpayload, hnode, hchange, hresolve]
    cases hresolution : registry.resolve (node.withPayload e) with
    | basic => rfl
    | unknown => rfl
    | rendered renderer =>
      obtain ⟨shape, hshape, horigin⟩ := resolve_eq_rendered_iff.1 hresolution
      have hmem : shape ∈ registry.shapes :=
        List.mem_of_find?_eq_some (shapeOf?_eq_some_iff.1 hshape).1
      have hrenderer : renderer ∈ shape.origin.renderer? := by
        rw [horigin]
        exact rfl
      exact congrArg Except.ok (h.apply_renderer shape hmem renderer hrenderer _)

/-- A shape whose renderer does not see the change may be added. -/
theorem Ignores.register (h : registry.Ignores change) {shape : Shape}
    (hshape : ∀ renderer ∈ shape.origin.renderer?,
      ∀ node : ExtensionNode, renderer.apply (change node) = renderer.apply node) :
    (registry.register shape).2.Ignores change := by
  unfold Registry.register
  split
  · exact h
  · refine ⟨fun other hother => ?_, h.apply_policy⟩
    rcases List.mem_append.1 hother with hother | hother
    · exact h.apply_renderer other hother
    · obtain rfl := List.mem_singleton.1 hother
      exact hshape

theorem Ignores.registerAll (h : registry.Ignores change) {shapes : List Shape}
    (hshapes : ∀ shape ∈ shapes, ∀ renderer ∈ shape.origin.renderer?,
      ∀ node : ExtensionNode, renderer.apply (change node) = renderer.apply node) :
    (registry.registerAll shapes).Ignores change := by
  induction shapes generalizing registry with
  | nil => exact h
  | cons shape rest ih =>
    obtain ⟨hshape, hrest⟩ := List.forall_mem_cons.1 hshapes
    exact ih (h.register hshape) hrest

end

end Registry

/-! ## Operations -/

section

variable {setup : Setup} {change : ExtensionNode → ExtensionNode}

/-- The functions that an operation brings do not see a change to a node. -/
def SetupOperation.Ignores (change : ExtensionNode → ExtensionNode) : SetupOperation → Prop
  | .register _ _ render => ∀ fields ∈ render, ∀ node, fields (change node) = fields node
  | .setPolicy policy => ∀ accepts ∈ policy, ∀ node, accepts (change node) = accepts node
  | _ => True

theorem Setup.ignores_apply (hpayload : ∀ node, (change node).payload = node.payload)
    (h : setup.registry.Ignores change) {operation : SetupOperation}
    (hoperation : operation.Ignores change) : (setup.apply operation).registry.Ignores change := by
  cases operation with
  | register label moduleName render =>
    refine h.register fun renderer hrenderer node => ?_
    obtain ⟨fields, hfields, rfl⟩ := Option.map_eq_some_iff.1 hrenderer
    exact hoperation fields hfields node
  | registerInternal label moduleName => exact h.register nofun
  | registerComponents =>
    rw [apply, Registry.registerComponents_eq]
    refine h.registerAll fun shape hshape renderer hrenderer node => ?_
    obtain ⟨kind, -, rfl⟩ := List.mem_map.1 hshape
    cases hrenderer
    show (kind.read? (change node).payload).getD [] = (kind.read? node.payload).getD []
    rw [hpayload]
  | trust moduleName => exact ⟨h.apply_renderer, h.apply_policy⟩
  | setPolicy policy => exact ⟨h.apply_renderer, hoperation⟩
  | configure config =>
    rw [apply, configure, Registry.trustAll_eq]
    exact ⟨h.apply_renderer, h.apply_policy⟩

/-- **It is up to the functions.**  A registry that operations bring about does not see a change
that leaves the contents of nodes as they are, if none of the functions that the operations bring
does. -/
theorem Setup.ignores_run (hpayload : ∀ node, (change node).payload = node.payload)
    (h : setup.registry.Ignores change) {operations : List SetupOperation}
    (hoperations : ∀ operation ∈ operations, operation.Ignores change) :
    (setup.run operations).registry.Ignores change := by
  induction operations generalizing setup with
  | nil => exact h
  | cons operation rest ih =>
    obtain ⟨hoperation, hrest⟩ := List.forall_mem_cons.1 hoperations
    exact ih (ignores_apply hpayload h hoperation) hrest

/-- A new registry has no functions at all. -/
theorem Registry.ignores_empty (change : ExtensionNode → ExtensionNode) :
    ({} : Registry).Ignores change :=
  ⟨fun _ hshape => absurd hshape List.not_mem_nil, nofun⟩

end

/-! ## Children -/

/-- The same node with nothing below it. -/
def ExtensionNode.withoutChildren (node : ExtensionNode) : ExtensionNode :=
  { node with children := [] }

namespace Registry

/-- Neither the renderers nor the policy look at the children of a node.  A renderer is meant to
extract what a node itself holds, and a policy to go by where a node comes from; but nothing keeps
them from going down. -/
abbrev IgnoresChildren (registry : Registry) : Prop :=
  registry.Ignores ExtensionNode.withoutChildren

/-- Where children are ignored, nodes that hold the same have the same fields. -/
theorem IgnoresChildren.fields?_congr {registry : Registry} (h : registry.IgnoresChildren)
    {first second : Node} (hsame : first.toAnnotated = second.toAnnotated) :
    registry.fields? first = registry.fields? second := by
  have hbare : ∀ node : Node, registry.fields? ⟨node.toAnnotated, []⟩ = registry.fields? node :=
    fun _ => h.fields?_eq rfl fun _ => rfl
  rw [← hbare first, ← hbare second, hsame]

/-- Where children are ignored, nodes that hold the same are written alike. -/
theorem IgnoresChildren.writeNode_congr {setup : Setup} (h : setup.registry.IgnoresChildren)
    {first second : Node} (hsame : first.toAnnotated = second.toAnnotated) (depth : Nat) :
    setup.writeNode depth first = setup.writeNode depth second := by
  rw [Setup.writeNode, Setup.writeNode, Setup.line?, Setup.line?, h.fields?_congr hsame, hsame]

end Registry

end TemplateDump
