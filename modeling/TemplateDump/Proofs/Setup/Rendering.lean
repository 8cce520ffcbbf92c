import TemplateDump.Proofs.Setup.History
import TemplateDump.Proofs.Tree.Stops

/-!
# What renderers see

A renderer of the package of components reads nodes of one class only, and nothing checks that the
node it is given is of that class.  It never has to: whatever the operations were, the shape with
that renderer is the one that the package registered (`eq_componentShape`), it speaks only for nodes
with the label of the class and the module of the package, and these are nodes of the class unless
a foreign one passes itself off for it (`exists_component`).  So it makes no difference what the
renderers would do with a node that they cannot read (`renderer_sees_own_nodes`).
-/

namespace TemplateDump

/-! ## Classes of components -/

namespace ComponentKind

theorem mem_all (kind : ComponentKind) : kind ∈ all := by
  cases kind <;> decide

theorem labels_nodup : (all.map label).Nodup := by
  decide

theorem label_inj {first second : ComponentKind} (h : first.label = second.label) :
    first = second :=
  List.inj_on_of_nodup_map labels_nodup first.mem_all second.mem_all h

end ComponentKind

/-- A foreign node that passes itself off for a component, with the label of one of the classes and
the module of the package. -/
def Payload.isImpostor : Payload Token → Bool
  | .extension (.foreign label moduleName _) =>
    moduleName == componentsModule && ComponentKind.all.any (·.label == label)
  | _ => false

/-- A node with the label of a class and the module of the package is of that class, if it is no
impostor. -/
theorem Extension.exists_component {e : Extension Token} {kind : ComponentKind}
    (hgenuine : (Payload.extension e).isImpostor = false) (hlabel : e.label = kind.label)
    (hmodule : e.moduleName = componentsModule) : ∃ c, e = .component c ∧ c.kind = kind := by
  cases e with
  | component c => exact ⟨c, rfl, ComponentKind.label_inj hlabel⟩
  | designTimeDirective => exact absurd hmodule (by decide)
  | foreign label moduleName fields =>
    have hany : ComponentKind.all.any (·.label == label) = true :=
      List.any_eq_true.2 ⟨kind, kind.mem_all, beq_iff_eq.2 hlabel.symm⟩
    have himpostor : (moduleName == componentsModule) = true := beq_iff_eq.2 hmodule
    rw [Payload.isImpostor, himpostor, hany] at hgenuine
    exact absurd hgenuine (by decide)

/-! ## Where renderers come from -/

/-- A shape with the renderer of a class of components is the one that the package registers. -/
theorem SetupOperation.eq_componentShape {operation : SetupOperation} {shape : Shape}
    {kind : ComponentKind} (hshape : shape ∈ operation.shapes)
    (horigin : shape.origin = .external (some (.component kind))) :
    shape = Registry.componentShape kind := by
  cases operation with
  | register label moduleName render =>
    obtain rfl := List.mem_singleton.1 hshape
    cases render <;> simp at horigin
  | registerInternal label moduleName =>
    obtain rfl := List.mem_singleton.1 hshape
    simp at horigin
  | registerComponents =>
    obtain ⟨found, -, rfl⟩ := List.mem_map.1 hshape
    rw [Registry.componentShape] at horigin
    cases horigin
    rfl
  | trust moduleName => exact absurd hshape List.not_mem_nil
  | setPolicy policy => exact absurd hshape List.not_mem_nil
  | configure config => exact absurd hshape List.not_mem_nil

theorem History.eq_componentShape {history : History} {label : String} {shape : Shape}
    {kind : ComponentKind} (hshape : history.firstShape? label = some shape)
    (horigin : shape.origin = .external (some (.component kind))) :
    shape = Registry.componentShape kind := by
  obtain ⟨operation, -, hmem⟩ := List.mem_flatMap.1 (List.mem_of_find?_eq_some hshape)
  exact operation.eq_componentShape hmem horigin

/-- A rendered node has the label and the module under which its renderer was registered. -/
theorem Setup.Reflects.exists_shape_of_rendered {setup : Setup} {history : History}
    (h : setup.Reflects history) {node : ExtensionNode} {renderer : Renderer}
    (hresolve : setup.registry.resolve node = .rendered renderer) :
    ∃ shape, history.firstShape? node.payload.label = some shape ∧
      shape.label = node.payload.label ∧ shape.moduleName = node.payload.moduleName ∧
      shape.origin = .external (some renderer) := by
  obtain ⟨shape, hshape, horigin⟩ := Registry.resolve_eq_rendered_iff.1 hresolve
  obtain ⟨hlookup, hmodule⟩ := Registry.shapeOf?_eq_some_iff.1 hshape
  rw [h.lookup_eq] at hlookup
  exact ⟨shape, hlookup, History.label_of_firstShape? hlookup, hmodule, horigin⟩

/-- The renderer of a class of components is given nodes of that class. -/
theorem Setup.Reflects.exists_component_of_rendered {setup : Setup} {history : History}
    (h : setup.Reflects history) {node : ExtensionNode} {kind : ComponentKind}
    (hgenuine : (Payload.extension node.payload).isImpostor = false)
    (hresolve : setup.registry.resolve node = .rendered (.component kind)) :
    ∃ c, node.payload = .component c ∧ c.kind = kind := by
  obtain ⟨shape, hshape, hlabel, hmodule, horigin⟩ := h.exists_shape_of_rendered hresolve
  obtain rfl := History.eq_componentShape hshape horigin
  exact Extension.exists_component hgenuine hlabel.symm hmodule.symm

/-! ## Renderers that misread -/

section Misreading

-- What the renderer of each class of components would do with a node that it cannot read.
variable (misread : ComponentKind → ExtensionNode → List Field)

/-- The renderer with something else in the place of what it gives for a node that it cannot
read. -/
def Renderer.misreading : Renderer → Renderer
  | .custom fields => .custom fields
  | .component kind => .custom fun node => (kind.read? node.payload).getD (misread kind node)

/-- The origin with such a renderer. -/
def ShapeOrigin.misreading : ShapeOrigin → ShapeOrigin
  | .internal => .internal
  | .external renderer => .external (renderer.map (Renderer.misreading misread))

/-- The shape with such a renderer. -/
def Shape.misreading (shape : Shape) : Shape :=
  { shape with origin := shape.origin.misreading misread }

/-- The registry with such renderers. -/
def Registry.misreading (registry : Registry) : Registry :=
  { registry with shapes := registry.shapes.map (Shape.misreading misread) }

/-- The resolution with such a renderer. -/
def Resolution.misreading : Resolution → Resolution
  | .rendered renderer => .rendered (renderer.misreading misread)
  | .basic => .basic
  | .unknown => .unknown

namespace Registry

theorem shapeOf?_misreading (registry : Registry) (e : Extension Token) :
    (registry.misreading misread).shapeOf? e =
      (registry.shapeOf? e).map (Shape.misreading misread) := by
  have hlookup : (registry.misreading misread).lookup e.label =
      (registry.lookup e.label).map (Shape.misreading misread) := List.find?_map
  rw [shapeOf?, shapeOf?, hlookup]
  cases registry.lookup e.label with
  | none => rfl
  | some shape =>
    rw [Option.map_some, Option.filter_some, Option.filter_some, apply_ite (Option.map _)]
    rfl

theorem resolve_misreading (registry : Registry) (node : ExtensionNode) :
    (registry.misreading misread).resolve node = (registry.resolve node).misreading misread := by
  rw [resolve, resolve, shapeOf?_misreading]
  cases registry.shapeOf? node.payload with
  | none =>
    show (if registry.isTrusted node then _ else _) = _
    cases registry.isTrusted node <;> rfl
  | some shape => rcases shape with ⟨label, moduleName, _ | _ | renderer⟩ <;> rfl

/-- A node whose renderer can read it has the same fields. -/
theorem fields?_misreading {registry : Registry} {node : Node}
    (h : ∀ e kind, node.payload = .extension e →
      registry.resolve (node.withPayload e) = .rendered (.component kind) →
      (kind.read? e).isSome = true) :
    (registry.misreading misread).fields? node = registry.fields? node := by
  cases hpayload : node.payload with
  | construct c => simp only [fields?, hpayload]
  | extension e =>
    simp only [fields?, hpayload, resolve_misreading]
    cases hresolve : registry.resolve (node.withPayload e) with
    | basic => rfl
    | unknown => rfl
    | rendered renderer =>
      cases renderer with
      | custom fields => rfl
      | component kind =>
        obtain ⟨fields, hread⟩ := Option.isSome_iff_exists.1 (h e kind hpayload hresolve)
        show Except.ok ((kind.read? e).getD _) = Except.ok ((kind.read? e).getD _)
        rw [hread, Option.getD_some, Option.getD_some]

end Registry

end Misreading

/-! ## Renderers in a dump -/

namespace Tree

/-- **A renderer only sees nodes of its own type.**  Take any history and any tree without
impostors.  If a node of the tree is rendered, its renderer is that of the first shape that was
asked for under its label, which is of its module; and if the renderer is that of a class of
components, the node is of that class.  So whatever such a renderer would do with other nodes, the
dump and the lines of single nodes are the same. -/
theorem renderer_sees_own_nodes (history : History) (options : Options) (tree : Tree)
    (hgenuine : ∀ p ∈ tree.listing 0, p.2.payload.isImpostor = false) :
    let setup : Setup := ⟨(({} : Setup).run history).registry, options⟩
    (∀ p ∈ tree.listing 0, ∀ e renderer, p.2.payload = .extension e →
      setup.registry.resolve (p.2.withPayload e) = .rendered renderer →
      (∃ shape, history.firstShape? e.label = some shape ∧ shape.label = e.label ∧
        shape.moduleName = e.moduleName ∧ shape.origin = .external (some renderer)) ∧
      ∀ kind, renderer = .component kind → ∃ c, e = .component c ∧ c.kind = kind) ∧
    ∀ misread : ComponentKind → ExtensionNode → List Field,
      let misreading : Setup := ⟨setup.registry.misreading misread, options⟩
      tree.dump misreading 0 = tree.dump setup 0 ∧
      ∀ p ∈ tree.listing 0, ∀ depth,
        misreading.writeNode depth p.2 = setup.writeNode depth p.2 := by
  intro setup
  have h := Setup.reflects_run history
  have hcomponent : ∀ p ∈ tree.listing 0, ∀ e kind, p.2.payload = .extension e →
      setup.registry.resolve (p.2.withPayload e) = .rendered (.component kind) →
      ∃ c, e = .component c ∧ c.kind = kind := by
    intro p hp e kind hpayload hresolve
    refine h.exists_component_of_rendered ?_ hresolve
    show (Payload.extension e).isImpostor = false
    rw [← hpayload]
    exact hgenuine p hp
  refine ⟨?_, ?_⟩
  · intro p hp e renderer hpayload hresolve
    refine ⟨h.exists_shape_of_rendered hresolve, ?_⟩
    rintro kind rfl
    exact hcomponent p hp e kind hpayload hresolve
  · intro misread misreading
    have hfields : ∀ p ∈ tree.listing 0,
        misreading.registry.fields? p.2 = setup.registry.fields? p.2 := by
      intro p hp
      refine Registry.fields?_misreading misread fun e kind hpayload hresolve => ?_
      exact ComponentKind.read?_isSome_iff.2 (hcomponent p hp e kind hpayload hresolve)
    have hoptions : misreading.options = setup.options := rfl
    refine ⟨dump_congr hoptions hfields, ?_⟩
    intro p hp depth
    exact Setup.writeNode_congr hoptions (hfields p hp) depth

/-- Another package has nodes with the label of references.  It cannot register a renderer for them,
and they are not given to the one for references either. -/
theorem renderer_sees_own_nodes_of_shared_label :
    let element : Head := ⟨.extension (.component (.htmlElement "div")), none, []⟩
    let foreign : Head := ⟨.extension (.foreign "RefExtensionNode" "Acme" [some "x"]), none, []⟩
    let tree : Tree := node element [node foreign [], absent]
    let history : History := [.registerComponents, .trust "Acme",
      .register "RefExtensionNode" "Acme" (some fun node => node.payload.offeredFields)]
    let setup : Setup := ⟨(({} : Setup).run history).registry, {}⟩
    (∀ p ∈ tree.listing 0, p.2.payload.isImpostor = false) ∧
      ∀ misread : ComponentKind → ExtensionNode → List Field,
        tree.dump ⟨setup.registry.misreading misread, {}⟩ 0 =
          .ofChars "HtmlElement - div\n    RefExtensionNode\n".toList := by
  intro element foreign tree history setup
  have hgenuine : ∀ p ∈ tree.listing 0, p.2.payload.isImpostor = false := by decide
  refine ⟨hgenuine, ?_⟩
  intro misread
  have hsame := ((renderer_sees_own_nodes history {} tree hgenuine).2 misread).1
  exact hsame.trans (by decide)

/-- An impostor is given to the renderer of the class that it passes itself off for. -/
example :
    let impostor : Head :=
      ⟨.extension (.foreign "RefExtensionNode" "Stencil.Components" []), none, []⟩
    let registry := (({} : Setup).run [.registerComponents]).registry
    (node impostor []).dump ⟨registry.misreading fun _ _ => [some "x"], {}⟩ 0 =
      .ofChars "RefExtensionNode - x\n".toList := by
  decide

end Tree

end TemplateDump
