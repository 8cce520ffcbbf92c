import TemplateDump.Proofs.Setup.Rendering

/-!
# When components are shown

Registering the components does not guarantee that they are shown.  The label of a class may have
been taken before, and then its shape is turned away without a word
(`unknown_component_of_taken_label`).  `component_shown_iff` says what is true: a component is shown
by the renderer of its class exactly if nobody else asked for the label first, and a tree of the
language's own nodes and of components can be dumped exactly if each label that was taken before was
taken for the module of the components, or the node is trusted.
-/

namespace TemplateDump

/-- The contents are a construct of the language or a component. -/
def Payload.isConstructOrComponent : Payload Token → Bool
  | .construct _ => true
  | .extension (.component _) => true
  | .extension _ => false

namespace History

/-- The label of a class was asked for by the package of components first, or by nobody. -/
def LabelFree (history : History) (kind : ComponentKind) : Prop :=
  ∀ shape, history.firstShape? kind.label = some shape → shape = Registry.componentShape kind

/-- The label of a class was asked for under the module of the components first, or by nobody. -/
def LabelOfModule (history : History) (kind : ComponentKind) : Prop :=
  ∀ shape, history.firstShape? kind.label = some shape → shape.moduleName = componentsModule

theorem LabelFree.labelOfModule {history : History} {kind : ComponentKind}
    (h : history.LabelFree kind) : history.LabelOfModule kind := by
  intro shape hshape
  rw [h shape hshape]
  rfl

/-- After the components were registered, the label of a class has the shape that it had before, or
else that of the class. -/
theorem firstShape?_registerComponents (earlier later : History) (kind : ComponentKind) :
    firstShape? (earlier ++ .registerComponents :: later) kind.label =
      (earlier.firstShape? kind.label).or (some (Registry.componentShape kind)) := by
  have hnext : firstShape? (.registerComponents :: later) kind.label =
      some (Registry.componentShape kind) := by
    cases kind <;> rfl
  rw [firstShape?_append, hnext]

/-- The shape of a class is in force exactly if the label was free. -/
theorem firstShape?_eq_componentShape_iff {earlier later : History} {kind : ComponentKind} :
    firstShape? (earlier ++ .registerComponents :: later) kind.label =
      some (Registry.componentShape kind) ↔ earlier.LabelFree kind := by
  rw [firstShape?_registerComponents, LabelFree]
  cases earlier.firstShape? kind.label <;> simp

theorem forall_firstShape?_moduleName_ne_iff {earlier later : History} {kind : ComponentKind} :
    (∀ shape, firstShape? (earlier ++ .registerComponents :: later) kind.label = some shape →
      shape.moduleName ≠ componentsModule) ↔ ¬ earlier.LabelOfModule kind := by
  rw [firstShape?_registerComponents, LabelOfModule]
  cases earlier.firstShape? kind.label <;> simp [Registry.componentShape]

end History

/-! ## Components after they were registered -/

namespace Setup

variable {setup : Setup} {earlier later : History}

/-- A component is shown by the renderer of its class exactly if the label was free. -/
theorem Reflects.resolve_component_iff
    (h : setup.Reflects (earlier ++ .registerComponents :: later)) {node : ExtensionNode}
    {c : Component Token} (hpayload : node.payload = .component c) :
    setup.registry.resolve node = .rendered (.component c.kind) ↔ earlier.LabelFree c.kind := by
  have hlabel : node.payload.label = c.kind.label := by rw [hpayload]; rfl
  rw [← History.firstShape?_eq_componentShape_iff, ← hlabel]
  constructor
  · intro hresolve
    obtain ⟨shape, hshape, -, -, horigin⟩ := h.exists_shape_of_rendered hresolve
    rwa [History.eq_componentShape hshape horigin] at hshape
  · intro hshape
    have hmodule : (Registry.componentShape c.kind).moduleName = node.payload.moduleName := by
      rw [hpayload]
      rfl
    exact h.resolve_of_firstShape? hshape hmodule

/-- A component is known exactly if its label was not taken for another module, or it is trusted. -/
theorem Reflects.knows_component_iff
    (h : setup.Reflects (earlier ++ .registerComponents :: later)) {node : Node}
    {c : Component Token} (hpayload : node.payload = .extension (.component c)) :
    setup.registry.Knows node ↔ earlier.LabelOfModule c.kind ∨
      History.accepts (earlier ++ .registerComponents :: later)
        (node.withPayload (.component c)) = true := by
  have hother : setup.registry.shapeOf? (.component c) = none ↔ ¬ earlier.LabelOfModule c.kind :=
    h.shapeOf?_eq_none_iff.trans History.forall_firstShape?_moduleName_ne_iff
  rw [Registry.knows_extension_iff hpayload, Ne, Registry.resolve_eq_unknown_iff, h.isTrusted_eq]
  show ¬ (setup.registry.shapeOf? (.component c) = none ∧ _) ↔ _
  rw [hother, Classical.not_and_iff_not_or_not, Classical.not_not, Bool.not_eq_false]

end Setup

namespace Tree

/-- **When components are shown.**  Let the components be registered at any time, with any
operations before and after.  A component is shown by the renderer of its class, and then with its
own fields, exactly if no other package asked for the label of the class first.  A tree of
constructs and components is dumped to the end exactly if, for each component in it, the label of
its class was not first asked for under another module, or the node is trusted; so it is if the
labels of its components were free. -/
theorem component_shown_iff (earlier later : History) (options : Options) :
    let history : History := earlier ++ .registerComponents :: later
    let setup : Setup := ⟨(({} : Setup).run history).registry, options⟩
    (∀ (c : Component Token) (source : Option SourceSpan) (diagnostics : List Diagnostic)
      (children : List Tree),
      (setup.registry.resolve ⟨⟨.component c, source, diagnostics⟩, children⟩ =
        .rendered (.component c.kind) ↔ earlier.LabelFree c.kind) ∧
      (earlier.LabelFree c.kind →
        setup.registry.fields? ⟨⟨.extension (.component c), source, diagnostics⟩, children⟩ =
          .ok c.fields)) ∧
    ∀ tree : Tree, (∀ p ∈ tree.listing 0, p.2.payload.isConstructOrComponent = true) →
      ((tree.dump setup 0).succeeded = true ↔
        ∀ p ∈ tree.listing 0, ∀ c, p.2.payload = .extension (.component c) →
          earlier.LabelOfModule c.kind ∨
            history.accepts (p.2.withPayload (.component c)) = true) ∧
      ((∀ p ∈ tree.listing 0, ∀ c, p.2.payload = .extension (.component c) →
          earlier.LabelFree c.kind) →
        (tree.dump setup 0).succeeded = true) := by
  intro history setup
  have h : (({} : Setup).run history).Reflects history := Setup.reflects_run history
  refine ⟨?_, ?_⟩
  · intro c source diagnostics children
    refine ⟨h.resolve_component_iff rfl, ?_⟩
    intro hfree
    exact Registry.fields?_of_own_renderer rfl ((h.resolve_component_iff rfl).2 hfree)
  · intro tree htree
    have hdump : (tree.dump setup 0).succeeded = true ↔
        ∀ p ∈ tree.listing 0, ∀ c, p.2.payload = .extension (.component c) →
          earlier.LabelOfModule c.kind ∨
            history.accepts (p.2.withPayload (.component c)) = true := by
      rw [succeeded_iff_stop?_eq_none, stop?_eq_none_iff]
      refine forall₂_congr fun p hp => ?_
      rcases hpayload : p.2.payload with c | c | _ | ⟨label, moduleName, fields⟩
      · simp [setup.registry.knows_construct hpayload]
      · have hknows : setup.registry.Knows p.2 ↔ earlier.LabelOfModule c.kind ∨
            history.accepts (p.2.withPayload (.component c)) = true :=
          h.knows_component_iff hpayload
        rw [hknows]
        simp
      · exact absurd (htree p hp) (by simp [hpayload, Payload.isConstructOrComponent])
      · exact absurd (htree p hp) (by simp [hpayload, Payload.isConstructOrComponent])
    refine ⟨hdump, ?_⟩
    intro hfree
    exact hdump.2 fun p hp c hpayload => .inl (hfree p hp c hpayload).labelOfModule

/-- The components were registered, but another package had the label of an element first, so that
an element is unknown. -/
theorem unknown_component_of_taken_label :
    let history : History := [.registerInternal "HtmlElementIntermediateNode" "Acme",
      .registerComponents]
    let element : Head := ⟨.extension (.component (.htmlElement "div")), none, []⟩
    (node element []).dump (({} : Setup).run history) 0 =
      ⟨[], some (.unknownNode "HtmlElementIntermediateNode" "Stencil.Components")⟩ := by
  decide

end Tree

end TemplateDump
