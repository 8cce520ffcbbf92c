import TemplateDump.Line
import Mathlib.Data.List.Nodup

/-!
# Registering shapes and resolving nodes

Shapes may be registered one after the other, and the first one with a label wins.

* `register_fst_eq_true_iff`, `register_of_fst_eq_false` — a registration does something exactly if
  the label had no shape;
* `lookup_registerAll` — what a label has after several registrations;
* `LabelsNodup.registerAll` — no registration gives a second shape to a label;
* `resolve_eq_rendered_iff`, `resolve_eq_unknown_iff` — which nodes are rendered, and which are
  unknown;
* `fields?_of_own_renderer` — what a component shows when its class renders it.
-/

namespace TemplateDump

namespace Registry

/-! ## Registering one shape after the other -/

/-- Registers several shapes in order. -/
def registerAll (registry : Registry) (shapes : List Shape) : Registry :=
  shapes.foldl (fun r shape => (r.register shape).2) registry

theorem registerComponents_eq (registry : Registry) :
    registry.registerComponents = registry.registerAll (ComponentKind.all.map componentShape) := by
  rw [registerAll, List.foldl_map]
  rfl

/-- A registration changes the shapes and nothing else. -/
@[simp] theorem trustedModules_register (registry : Registry) (shape : Shape) :
    (registry.register shape).2.trustedModules = registry.trustedModules := by
  unfold register
  split <;> rfl

@[simp] theorem policy_register (registry : Registry) (shape : Shape) :
    (registry.register shape).2.policy = registry.policy := by
  unfold register
  split <;> rfl

@[simp] theorem trustedModules_registerAll (registry : Registry) (shapes : List Shape) :
    (registry.registerAll shapes).trustedModules = registry.trustedModules := by
  induction shapes generalizing registry with
  | nil => rfl
  | cons shape rest ih => exact (ih _).trans (trustedModules_register registry shape)

@[simp] theorem policy_registerAll (registry : Registry) (shapes : List Shape) :
    (registry.registerAll shapes).policy = registry.policy := by
  induction shapes generalizing registry with
  | nil => rfl
  | cons shape rest ih => exact (ih _).trans (policy_register registry shape)

/-- A registration says yes exactly if the label had no shape, and otherwise it does nothing. -/
theorem register_fst_eq_true_iff {registry : Registry} {shape : Shape} :
    (registry.register shape).1 = true ↔ registry.lookup shape.label = none := by
  cases h : registry.lookup shape.label <;> simp [register, h]

theorem register_of_fst_eq_false {registry : Registry} {shape : Shape}
    (h : (registry.register shape).1 = false) : (registry.register shape).2 = registry := by
  cases hlookup : registry.lookup shape.label with
  | none => simp [register, hlookup] at h
  | some s => simp [register, hlookup]

/-- A label keeps the shape that it had, and otherwise has the first of the new ones with it. -/
theorem lookup_registerAll (registry : Registry) (shapes : List Shape) (label : String) :
    (registry.registerAll shapes).lookup label =
      (registry.lookup label).or (shapes.find? (·.label == label)) := by
  induction shapes generalizing registry with
  | nil => exact Option.or_none.symm
  | cons shape rest ih =>
    show ((registry.register shape).2.registerAll rest).lookup label = _
    rw [ih, lookup_register, Option.or_assoc, List.find?_cons]
    by_cases h : shape.label = label
    · simp [h]
    · simp [h, beq_eq_false_iff_ne.2 h]

theorem lookup_eq_none_iff {registry : Registry} {label : String} :
    registry.lookup label = none ↔ label ∉ registry.shapes.map Shape.label := by
  simp [lookup]

/-- No label has two shapes. -/
def LabelsNodup (registry : Registry) : Prop :=
  (registry.shapes.map Shape.label).Nodup

theorem LabelsNodup.register {registry : Registry} (h : registry.LabelsNodup) (shape : Shape) :
    (registry.register shape).2.LabelsNodup := by
  cases hfresh : (registry.register shape).1 with
  | false => rwa [register_of_fst_eq_false hfresh]
  | true =>
    have hlabel := register_fst_eq_true_iff.1 hfresh
    have hshapes : (registry.register shape).2.shapes = registry.shapes ++ [shape] := by
      simp [Registry.register, hlabel]
    rw [LabelsNodup, hshapes, List.map_append, List.nodup_append]
    refine ⟨h, List.nodup_singleton _, ?_⟩
    intro a ha b hb
    rw [List.map_singleton, List.mem_singleton] at hb
    rintro rfl
    exact lookup_eq_none_iff.1 hlabel (hb ▸ ha)

theorem LabelsNodup.registerAll {registry : Registry} (h : registry.LabelsNodup)
    (shapes : List Shape) : (registry.registerAll shapes).LabelsNodup := by
  induction shapes generalizing registry with
  | nil => exact h
  | cons shape rest ih => exact ih (h.register shape)

/-- Where no label has two shapes, each shape is found under its label. -/
theorem LabelsNodup.lookup_of_mem {registry : Registry} (h : registry.LabelsNodup) {shape : Shape}
    (hshape : shape ∈ registry.shapes) : registry.lookup shape.label = some shape := by
  cases hlookup : registry.lookup shape.label with
  | none => exact absurd (List.mem_map_of_mem hshape) (lookup_eq_none_iff.1 hlookup)
  | some found =>
    have hfound : found ∈ registry.shapes := List.mem_of_find?_eq_some hlookup
    rw [List.inj_on_of_nodup_map h hfound hshape (label_of_lookup hlookup)]

/-- Trusting several modules adds them to the trusted ones and does nothing else. -/
theorem trustAll_eq (registry : Registry) (moduleNames : List String) :
    registry.trustAll moduleNames =
      { registry with trustedModules := registry.trustedModules ++ moduleNames } := by
  induction moduleNames generalizing registry with
  | nil => simp [trustAll]
  | cons moduleName rest ih =>
    show (registry.trust moduleName).trustAll rest = _
    rw [ih, trust, List.append_assoc, List.singleton_append]

/-! ## Resolving nodes -/

/-- The shape under the label of an extension speaks for it if it is of its module. -/
theorem shapeOf?_eq_some_iff {registry : Registry} {e : Extension Token} {shape : Shape} :
    registry.shapeOf? e = some shape ↔
      registry.lookup e.label = some shape ∧ shape.moduleName = e.moduleName := by
  rw [shapeOf?, Option.filter_eq_some_iff, beq_iff_eq]

/-- Exactly the nodes for which a shape with a renderer speaks are rendered, and by that one. -/
theorem resolve_eq_rendered_iff {registry : Registry} {node : ExtensionNode} {renderer : Renderer} :
    registry.resolve node = .rendered renderer ↔
      ∃ shape, registry.shapeOf? node.payload = some shape ∧
        shape.origin = .external (some renderer) := by
  cases hshape : registry.shapeOf? node.payload with
  | none => cases htrusted : registry.isTrusted node <;> simp [resolve, hshape, htrusted]
  | some shape =>
    rcases shape with ⟨label, moduleName, _ | _ | found⟩ <;>
      simp [resolve, hshape, ShapeOrigin.renderer?]

/-- Exactly the nodes for which no shape speaks and which are not trusted are unknown. -/
theorem resolve_eq_unknown_iff {registry : Registry} {node : ExtensionNode} :
    registry.resolve node = .unknown ↔
      registry.shapeOf? node.payload = none ∧ registry.isTrusted node = false := by
  cases hshape : registry.shapeOf? node.payload with
  | none => cases htrusted : registry.isTrusted node <;> simp [resolve, hshape, htrusted]
  | some shape =>
    cases hrenderer : shape.origin.renderer? <;> simp [resolve, hshape, hrenderer]

/-- A component that is shown by the renderer of its class has its own fields. -/
theorem fields?_of_own_renderer {registry : Registry} {node : Node} {c : Component Token}
    (hpayload : node.payload = .extension (.component c))
    (hresolve : registry.resolve (node.withPayload (.component c)) =
      .rendered (.component c.kind)) :
    registry.fields? node = .ok c.fields := by
  simp only [fields?, hpayload, hresolve]
  show Except.ok ((c.kind.read? (.component c)).getD []) = _
  rw [ComponentKind.read?_self, Option.getD_some]

end Registry

end TemplateDump
