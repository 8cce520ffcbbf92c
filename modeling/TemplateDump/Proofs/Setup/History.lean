import TemplateDump.Proofs.Registry.Registering
import TemplateDump.Setup
import Mathlib.Data.Finset.Card

/-!
# What a setup owes to its history

The state of a setup can be read off the operations that led to it, without carrying any of them
out: a label has the shape that was first asked for under it, a module is trusted if some operation
trusted it, and the policy and the option are those that were set last.

* `apply_eq` — what any operation does to the parts of a setup, in one equation;
* `Reflects.run` — so every run keeps the state in step with the history;
* `state_of_history` — and what the registry answers is known from the history alone.
-/

namespace TemplateDump

/-! ## What an operation asks for -/

namespace SetupOperation

/-- The shapes that an operation asks to register, in order. -/
def shapes : SetupOperation → List Shape
  | .registerComponents => ComponentKind.all.map Registry.componentShape
  | operation => operation.shape?.toList

/-- The modules that an operation trusts. -/
def trustedModules : SetupOperation → List String
  | .trust moduleName => [moduleName]
  | .configure config => config.trustedModules
  | _ => []

/-- The policy that an operation sets, which may be none. -/
def policy? : SetupOperation → Option (Option TrustPolicy)
  | .setPolicy policy => some policy
  | _ => none

/-- What an operation says about showing diagnostics. -/
def includeDiagnostics? : SetupOperation → Option Bool
  | .configure config => config.includeDiagnostics
  | _ => none

end SetupOperation

/-! ## What a history tells -/

/-- The operations that were carried out on a new setup, in order. -/
abbrev History := List SetupOperation

namespace History

/-- All shapes that were asked to be registered, in order. -/
def registrations (history : History) : List Shape :=
  history.flatMap SetupOperation.shapes

/-- The first shape that was asked to be registered under a label. -/
def firstShape? (history : History) (label : String) : Option Shape :=
  history.registrations.find? (·.label == label)

/-- The modules that were trusted from the start or later. -/
def trustedModules (history : History) : List String :=
  languageModule :: history.flatMap SetupOperation.trustedModules

/-- The policy that was set last, if one was set and it was not removed. -/
def lastPolicy? (history : History) : Option TrustPolicy :=
  (history.filterMap SetupOperation.policy?).getLast?.join

/-- The last word on showing diagnostics; at first they are shown. -/
def lastIncludeDiagnostics (history : History) : Bool :=
  (history.filterMap SetupOperation.includeDiagnostics?).getLast?.getD true

/-- Whether a node without a shape is trusted. -/
def accepts (history : History) (node : ExtensionNode) : Bool :=
  match history.lastPolicy? with
  | some policy => policy node
  | none => history.trustedModules.contains node.payload.moduleName

theorem label_of_firstShape? {history : History} {label : String} {shape : Shape}
    (h : history.firstShape? label = some shape) : shape.label = label := by
  simpa using List.find?_some h

theorem firstShape?_append (first second : History) (label : String) :
    firstShape? (first ++ second) label =
      (first.firstShape? label).or (second.firstShape? label) := by
  rw [firstShape?, registrations, List.flatMap_append, List.find?_append]
  rfl

end History

/-! ## Steps and runs -/

namespace Setup

/-- **What an operation does.**  It registers its shapes, trusts its modules, and sets the policy
and the option if it has a word on them. -/
theorem apply_eq (setup : Setup) (operation : SetupOperation) :
    setup.apply operation =
      { registry := {
          shapes := (setup.registry.registerAll operation.shapes).shapes
          trustedModules := setup.registry.trustedModules ++ operation.trustedModules
          policy := operation.policy?.getD setup.registry.policy }
        options := { includeDiagnostics :=
          operation.includeDiagnostics?.getD setup.options.includeDiagnostics } } := by
  -- The three ways to register shapes change nothing else, so they are one case.
  have hregister : ∀ shapes,
      ({ setup with registry := setup.registry.registerAll shapes } : Setup) =
      { registry := {
          shapes := (setup.registry.registerAll shapes).shapes
          trustedModules := setup.registry.trustedModules ++ []
          policy := setup.registry.policy }
        options := setup.options } := by
    intro shapes
    rw [List.append_nil, ← Registry.trustedModules_registerAll setup.registry shapes,
      ← Registry.policy_registerAll setup.registry shapes]
  cases operation with
  | register label moduleName render => exact hregister [_]
  | registerInternal label moduleName => exact hregister [_]
  | registerComponents =>
    rw [apply, Registry.registerComponents_eq]
    exact hregister _
  | trust moduleName => rfl
  | setPolicy policy =>
    have hnone : (SetupOperation.setPolicy policy).trustedModules = [] := rfl
    rw [hnone, List.append_nil]
    rfl
  | configure config =>
    rw [apply, configure, Registry.trustAll_eq]
    rfl

/-- The state of a setup is the one that the history tells. -/
structure Reflects (setup : Setup) (history : History) : Prop where
  lookup_eq : ∀ label, setup.registry.lookup label = history.firstShape? label
  labelsNodup : setup.registry.LabelsNodup
  trustedModules_eq : setup.registry.trustedModules = history.trustedModules
  policy_eq : setup.registry.policy = history.lastPolicy?
  includeDiagnostics_eq : setup.options.includeDiagnostics = history.lastIncludeDiagnostics

theorem reflects_nil : ({} : Setup).Reflects [] where
  lookup_eq _ := rfl
  labelsNodup := List.nodup_nil
  trustedModules_eq := rfl
  policy_eq := rfl
  includeDiagnostics_eq := rfl

/-- What was said last is the new word if there is one, and otherwise what was said last before. -/
theorem getLast?_filterMap_concat {α β : Type} (f : α → Option β) (l : List α) (a : α) :
    ((l ++ [a]).filterMap f).getLast? = (f a).or (l.filterMap f).getLast? := by
  rw [List.filterMap_append, List.getLast?_append]
  cases h : f a with
  | none => rw [List.filterMap_cons_none h]; rfl
  | some b => rw [List.filterMap_cons_some h]; rfl

theorem Reflects.apply {setup : Setup} {history : History} (h : setup.Reflects history)
    (operation : SetupOperation) :
    (setup.apply operation).Reflects (history ++ [operation]) := by
  rw [apply_eq]
  constructor
  case lookup_eq =>
    intro label
    show (setup.registry.registerAll operation.shapes).lookup label = _
    rw [Registry.lookup_registerAll, h.lookup_eq, History.firstShape?_append]
    simp [History.firstShape?, History.registrations]
  case labelsNodup => exact h.labelsNodup.registerAll operation.shapes
  case trustedModules_eq =>
    simp [h.trustedModules_eq, History.trustedModules]
  case policy_eq =>
    rw [History.lastPolicy?, getLast?_filterMap_concat, h.policy_eq, History.lastPolicy?]
    cases operation.policy? <;> rfl
  case includeDiagnostics_eq =>
    rw [History.lastIncludeDiagnostics, getLast?_filterMap_concat, h.includeDiagnostics_eq,
      Option.getD_or]
    rfl

/-- A run keeps the state in step with the history. -/
theorem Reflects.run {setup : Setup} {past : History} (h : setup.Reflects past)
    (operations : List SetupOperation) : (setup.run operations).Reflects (past ++ operations) := by
  induction operations generalizing setup past with
  | nil => rwa [List.append_nil]
  | cons operation rest ih =>
    rw [← List.singleton_append, ← List.append_assoc]
    exact ih (h.apply operation)

theorem reflects_run (history : History) : (({} : Setup).run history).Reflects history :=
  reflects_nil.run history

/-! ## What the registry answers -/

section Reflects

variable {setup : Setup} {history : History}

theorem Reflects.isTrusted_eq (h : setup.Reflects history) (node : ExtensionNode) :
    setup.registry.isTrusted node = history.accepts node := by
  cases hpolicy : history.lastPolicy? with
  | some policy => simp only [Registry.isTrusted, History.accepts, h.policy_eq, hpolicy]
  | none =>
    simp only [Registry.isTrusted, History.accepts, h.policy_eq, hpolicy,
      Registry.isTrustedModule, h.trustedModules_eq]

/-- The label has no shape exactly if nothing was asked to be registered under it. -/
theorem Reflects.lookup_eq_none_iff (h : setup.Reflects history) {label : String} :
    setup.registry.lookup label = none ↔ ∀ shape ∈ history.registrations, shape.label ≠ label := by
  rw [h.lookup_eq, History.firstShape?, List.find?_eq_none]
  simp only [beq_iff_eq, ne_eq]

/-- There are as many shapes as labels that were asked for. -/
theorem Reflects.size_eq (h : setup.Reflects history) :
    setup.registry.size = (history.registrations.map Shape.label).toFinset.card := by
  have hlabels : (setup.registry.shapes.map Shape.label).toFinset =
      (history.registrations.map Shape.label).toFinset := by
    ext label
    rw [List.mem_toFinset, List.mem_toFinset, ← not_iff_not, ← Registry.lookup_eq_none_iff,
      h.lookup_eq_none_iff]
    simp
  rw [← hlabels, List.toFinset_card_of_nodup h.labelsNodup, List.length_map, Registry.size]

/-- In the middle of an operation, a label has no shape exactly if no registration under it was
asked for so far. -/
theorem Reflects.lookup_registerAll_eq_none_iff (h : setup.Reflects history) (before : List Shape)
    {label : String} :
    (setup.registry.registerAll before).lookup label = none ↔
      ∀ other ∈ history.registrations ++ before, other.label ≠ label := by
  rw [Registry.lookup_registerAll, Option.or_eq_none_iff, h.lookup_eq_none_iff,
    List.find?_eq_none, List.forall_mem_append]
  simp only [beq_iff_eq, ne_eq]

/-- The first shape with the label of a node speaks for it if it is of the same module. -/
theorem Reflects.resolve_of_firstShape? (h : setup.Reflects history) {node : ExtensionNode}
    {shape : Shape} (hshape : history.firstShape? node.payload.label = some shape)
    (hmodule : shape.moduleName = node.payload.moduleName) :
    setup.registry.resolve node =
      match shape.origin with
      | .external (some renderer) => .rendered renderer
      | _ => .basic := by
  have hfound : setup.registry.shapeOf? node.payload = some shape := by
    rw [Registry.shapeOf?_eq_some_iff, h.lookup_eq]
    exact ⟨hshape, hmodule⟩
  rw [Registry.resolve, hfound]
  rcases shape with ⟨_, _, _ | _ | renderer⟩ <;> rfl

/-- No shape speaks for a node exactly if the first one with its label is of another module. -/
theorem Reflects.shapeOf?_eq_none_iff (h : setup.Reflects history) {e : Extension Token} :
    setup.registry.shapeOf? e = none ↔
      ∀ shape, history.firstShape? e.label = some shape → shape.moduleName ≠ e.moduleName := by
  rw [Registry.shapeOf?, h.lookup_eq, Option.filter_eq_none_iff]
  simp only [beq_iff_eq, ne_eq]

/-- Where no shape speaks for a node, trust decides. -/
theorem Reflects.resolve_of_no_shape (h : setup.Reflects history) {node : ExtensionNode}
    (hother : ∀ shape, history.firstShape? node.payload.label = some shape →
      shape.moduleName ≠ node.payload.moduleName) :
    setup.registry.resolve node = if history.accepts node then .basic else .unknown := by
  rw [Registry.resolve, h.shapeOf?_eq_none_iff.2 hother, ← h.isTrusted_eq]

end Reflects

/-- **The history decides everything.**  After any operations on a new setup, a label has the shape
that was first asked for under it.  Whatever operation comes next registers its shapes one after the
other; a registration says yes exactly if no earlier one, in the history or just before, has the
same label, and it does nothing if it says no.  There are as many shapes as labels asked for, each
is found under its own label, and an internal one has no renderer.  The trusted modules and the
option are as the history tells.  A node is shown as the first shape with its label says if that is
of the module of the node; otherwise it is shown without fields if the last policy accepts it, or
without a policy if its module is trusted, and else it is unknown. -/
theorem state_of_history (history : History) :
    let setup := ({} : Setup).run history
    let registry := setup.registry
    (∀ label, registry.lookup label = history.firstShape? label) ∧
    (∀ operation : SetupOperation,
      (setup.apply operation).registry.shapes = (registry.registerAll operation.shapes).shapes) ∧
    (∀ before shape,
      let reached := registry.registerAll before
      ((reached.register shape).1 = true ↔
        ∀ other ∈ history.registrations ++ before, other.label ≠ shape.label) ∧
      ((reached.register shape).1 = false → (reached.register shape).2 = reached)) ∧
    registry.size = (history.registrations.map Shape.label).toFinset.card ∧
    (∀ shape ∈ registry.shapes, registry.lookup shape.label = some shape ∧
      (shape.origin = .internal → shape.origin.renderer? = none)) ∧
    (∀ moduleName, registry.isTrustedModule moduleName = true ↔
      moduleName ∈ history.trustedModules) ∧
    setup.options.includeDiagnostics = history.lastIncludeDiagnostics ∧
    ∀ node : ExtensionNode,
      (∀ shape, history.firstShape? node.payload.label = some shape →
        shape.moduleName = node.payload.moduleName →
        registry.resolve node =
          match shape.origin with
          | .external (some renderer) => .rendered renderer
          | _ => .basic) ∧
      ((∀ shape, history.firstShape? node.payload.label = some shape →
          shape.moduleName ≠ node.payload.moduleName) →
        registry.resolve node = if history.accepts node then .basic else .unknown) := by
  intro setup registry
  have h : setup.Reflects history := reflects_run history
  refine ⟨h.lookup_eq, ?_, ?_, h.size_eq, ?_, ?_, h.includeDiagnostics_eq, ?_⟩
  · intro operation
    rw [apply_eq]
  · intro before shape reached
    refine ⟨?_, Registry.register_of_fst_eq_false⟩
    rw [Registry.register_fst_eq_true_iff]
    exact h.lookup_registerAll_eq_none_iff before
  · intro shape hshape
    refine ⟨h.labelsNodup.lookup_of_mem hshape, ?_⟩
    intro horigin
    rw [horigin]
    rfl
  · intro moduleName
    rw [Registry.isTrustedModule, h.trustedModules_eq, List.contains_iff_mem]
  · intro node
    constructor
    · intro shape hshape hmodule
      exact h.resolve_of_firstShape? hshape hmodule
    · intro hother
      exact h.resolve_of_no_shape hother

/-- The label of references stays with the package that had it first, a policy that was removed
counts no more, and a module is trusted by a configuration. -/
example :
    let history : History := [.registerInternal "RefExtensionNode" "Acme", .registerComponents,
      .setPolicy (some fun _ => false), .configure { trustedModules := ["Contoso"] },
      .setPolicy none]
    (({} : Setup).run history).registry.size = 6 ∧
      (history.firstShape? "RefExtensionNode").map Shape.moduleName = some "Acme" ∧
      history.accepts ⟨⟨.foreign "Widget" "Contoso" [], none, []⟩, []⟩ = true := by
  decide

end Setup

end TemplateDump
