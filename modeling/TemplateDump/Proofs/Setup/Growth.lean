import TemplateDump.Proofs.Setup.History
import TemplateDump.Proofs.Tree.Stops

/-!
# Growing registries

As long as the policy stays what it is, operations only add to a registry: `Registry.Extends` is
what they keep.  A larger registry knows more nodes (`Extends.knows`), although it may show some of
them in another way, so that no dump is stopped earlier than before.  If modules were trusted and
nothing else happened, the nodes that were known are shown as they were, and the text that was
written is where the new text starts (`dump_after_growth`).
-/

namespace TemplateDump

/-! ## Larger registries -/

namespace Registry

/-- A larger registry: labels keep their shapes, trusted modules stay trusted, and the policy is the
same. -/
structure Extends (later earlier : Registry) : Prop where
  lookup_of_lookup : ∀ {label shape}, earlier.lookup label = some shape →
    later.lookup label = some shape
  trusted_of_trusted : ∀ {moduleName}, earlier.isTrustedModule moduleName = true →
    later.isTrustedModule moduleName = true
  policy_eq : later.policy = earlier.policy

theorem Extends.refl (registry : Registry) : registry.Extends registry where
  lookup_of_lookup := id
  trusted_of_trusted := id
  policy_eq := rfl

theorem Extends.trans {first second third : Registry} (h : third.Extends second)
    (h' : second.Extends first) : third.Extends first where
  lookup_of_lookup := h.lookup_of_lookup ∘ h'.lookup_of_lookup
  trusted_of_trusted := h.trusted_of_trusted ∘ h'.trusted_of_trusted
  policy_eq := h.policy_eq.trans h'.policy_eq

section

variable {later earlier : Registry}

theorem Extends.isTrusted (h : later.Extends earlier) {node : ExtensionNode}
    (hnode : earlier.isTrusted node = true) : later.isTrusted node = true := by
  rw [Registry.isTrusted, h.policy_eq]
  rw [Registry.isTrusted] at hnode
  cases hpolicy : earlier.policy with
  | some policy => rwa [hpolicy] at hnode
  | none =>
    rw [hpolicy] at hnode
    exact h.trusted_of_trusted hnode

/-- A shape that speaks for an extension goes on to do so. -/
theorem Extends.shapeOf? (h : later.Extends earlier) {e : Extension Token} {shape : Shape}
    (hshape : earlier.shapeOf? e = some shape) : later.shapeOf? e = some shape := by
  rw [shapeOf?_eq_some_iff] at hshape ⊢
  exact ⟨h.lookup_of_lookup hshape.1, hshape.2⟩

/-- A larger registry knows more nodes. -/
theorem Extends.knows (h : later.Extends earlier) {node : Node} (hnode : earlier.Knows node) :
    later.Knows node := by
  rintro e ⟨hpayload, hunknown⟩
  obtain ⟨hshape, htrusted⟩ := resolve_eq_unknown_iff.1 hunknown
  refine hnode e ⟨hpayload, resolve_eq_unknown_iff.2 ⟨?_, ?_⟩⟩
  · refine Option.eq_none_iff_forall_ne_some.2 fun shape hsome => ?_
    rw [h.shapeOf? hsome] at hshape
    exact absurd hshape (by simp)
  · refine Bool.eq_false_iff.2 fun htrue => ?_
    rw [h.isTrusted htrue] at htrusted
    exact absurd htrusted (by simp)

/-- If no shape was added, a known node has the fields that it had. -/
theorem Extends.fields?_eq (h : later.Extends earlier) (hshapes : later.shapes = earlier.shapes)
    {node : Node} (hnode : earlier.Knows node) : later.fields? node = earlier.fields? node := by
  cases hpayload : node.payload with
  | construct c => simp only [fields?, hpayload]
  | extension e =>
    have hlater : later.shapeOf? e = earlier.shapeOf? e := by
      simp only [Registry.shapeOf?, lookup, hshapes]
    have hresolve : later.resolve (node.withPayload e) = earlier.resolve (node.withPayload e) := by
      cases hshape : earlier.shapeOf? e with
      | some shape => simp only [resolve, Node.payload_withPayload, hlater, hshape]
      | none =>
        have htrusted : earlier.isTrusted (node.withPayload e) = true := by
          refine Bool.eq_true_of_not_eq_false fun hfalse => hnode e ⟨hpayload, ?_⟩
          exact resolve_eq_unknown_iff.2 ⟨hshape, hfalse⟩
        simp only [resolve, Node.payload_withPayload, hlater, hshape, htrusted,
          h.isTrusted htrusted]
    simp only [fields?, hpayload, hresolve]

end

end Registry

/-! ## Operations that add -/

namespace SetupOperation

/-- The operation sets the policy or removes it. -/
def setsPolicy : SetupOperation → Bool
  | .setPolicy _ => true
  | _ => false

/-- The operation trusts modules and does nothing else to the registry. -/
def onlyTrusts : SetupOperation → Bool
  | .trust _ => true
  | .configure _ => true
  | _ => false

theorem policy?_eq_none {operation : SetupOperation} (h : operation.setsPolicy = false) :
    operation.policy? = none := by
  cases operation with
  | setPolicy policy => exact absurd h (by simp [setsPolicy])
  | _ => rfl

theorem shapes_eq_nil {operation : SetupOperation} (h : operation.onlyTrusts = true) :
    operation.shapes = [] := by
  cases operation with
  | trust moduleName => rfl
  | configure config => rfl
  | setPolicy policy => rfl
  | _ => exact absurd h (by simp [onlyTrusts])

end SetupOperation

namespace Setup

theorem apply_extends (setup : Setup) {operation : SetupOperation}
    (h : operation.setsPolicy = false) :
    (setup.apply operation).registry.Extends setup.registry := by
  rw [apply_eq]
  constructor
  case lookup_of_lookup =>
    intro label shape hshape
    show (setup.registry.registerAll operation.shapes).lookup label = some shape
    rw [Registry.lookup_registerAll, hshape, Option.some_or]
  case trusted_of_trusted =>
    intro moduleName htrusted
    rw [Registry.isTrustedModule, List.contains_iff_mem] at htrusted ⊢
    exact List.mem_append_left _ htrusted
  case policy_eq => rw [SetupOperation.policy?_eq_none h, Option.getD_none]

theorem run_extends (setup : Setup) {operations : List SetupOperation}
    (h : ∀ operation ∈ operations, operation.setsPolicy = false) :
    (setup.run operations).registry.Extends setup.registry := by
  induction operations generalizing setup with
  | nil => exact .refl _
  | cons operation rest ih =>
    obtain ⟨hoperation, hrest⟩ := List.forall_mem_cons.1 h
    exact (ih _ hrest).trans (setup.apply_extends hoperation)

theorem shapes_run (setup : Setup) {operations : List SetupOperation}
    (h : ∀ operation ∈ operations, operation.onlyTrusts = true) :
    (setup.run operations).registry.shapes = setup.registry.shapes := by
  induction operations generalizing setup with
  | nil => rfl
  | cons operation rest ih =>
    obtain ⟨hoperation, hrest⟩ := List.forall_mem_cons.1 h
    refine (ih _ hrest).trans ?_
    rw [apply_eq, SetupOperation.shapes_eq_nil hoperation]
    rfl

end Setup

/-! ## Dumps -/

namespace Tree

/-- **Adding to a registry breaks no dump.**  Whatever the registry, and whatever is registered or
trusted as long as the policy is not set: a dump that went through goes through afterwards, and a
dump that stopped does not stop at an earlier node.  If modules were trusted and nothing else, the
dump with the same options starts with the text that was written before, and is the same dump if
that one went through. -/
theorem dump_after_growth (setup : Setup) (operations : List SetupOperation)
    (hoperations : ∀ operation ∈ operations, operation.setsPolicy = false) (tree : Tree)
    (options : Options) :
    let later : Setup := ⟨(setup.run operations).registry, options⟩
    ((tree.dump setup 0).succeeded = true → (tree.dump later 0).succeeded = true) ∧
    (∀ j, tree.stop? setup = some j →
      (tree.dump setup 0).succeeded = false ∧
      (tree.dump setup 0).chars = ((tree.listing 0).take j).flatMap setup.wholeLine ∧
      ((tree.listing 0).take j).flatMap later.wholeLine <+: (tree.dump later 0).chars ∧
      ∀ k, tree.stop? later = some k → j ≤ k) ∧
    ((∀ operation ∈ operations, operation.onlyTrusts = true) → options = setup.options →
      (tree.dump setup 0).chars <+: (tree.dump later 0).chars ∧
      ((tree.dump setup 0).succeeded = true → tree.dump later 0 = tree.dump setup 0)) := by
  intro later
  have hextends : later.registry.Extends setup.registry := setup.run_extends hoperations
  have hthrough : tree.stop? setup = none → tree.stop? later = none := by
    intro hnone
    exact stop?_eq_none_iff.2 fun p hp => hextends.knows (stop?_eq_none_iff.1 hnone p hp)
  have hstop : ∀ {j}, tree.stop? setup = some j → ∀ k, tree.stop? later = some k → j ≤ k :=
    fun hj k hk => stop?_le_stop? (fun _ => hextends.knows) hj hk
  refine ⟨?_, ?_, ?_⟩
  · rw [succeeded_iff_stop?_eq_none, succeeded_iff_stop?_eq_none]
    exact hthrough
  · intro j hj
    obtain ⟨hfailed, hchars⟩ := dump_of_stop?_eq_some hj
    exact ⟨hfailed, hchars, lines_prefix_dump (hstop hj), hstop hj⟩
  · intro htrusts hoptions
    have hshapes : later.registry.shapes = setup.registry.shapes := setup.shapes_run htrusts
    cases hsetup : tree.stop? setup with
    | none =>
      have hsame : tree.dump later 0 = tree.dump setup 0 := by
        refine dump_congr hoptions fun p hp => ?_
        exact hextends.fields?_eq hshapes (stop?_eq_none_iff.1 hsetup p hp)
      exact ⟨by rw [hsame], fun _ => hsame⟩
    | some j =>
      obtain ⟨hfailed, hchars⟩ := dump_of_stop?_eq_some hsetup
      obtain ⟨_, -, hbefore⟩ := stop?_eq_some_iff.1 hsetup
      have hlines : ((tree.listing 0).take j).flatMap later.wholeLine =
          ((tree.listing 0).take j).flatMap setup.wholeLine :=
        Setup.wholeLines_congr hoptions fun p hp => hextends.fields?_eq hshapes (hbefore p hp)
      refine ⟨?_, fun h => absurd h (by simp [hfailed])⟩
      rw [hchars, ← hlines]
      exact lines_prefix_dump (hstop hsetup)

/-- A dump stopped at its third node, and goes on from there when the module of that node is
trusted. -/
theorem dump_after_trust_of_third_module :
    let content : Head := ⟨.construct .htmlContent, none, []⟩
    let widget : Head := ⟨.extension (.foreign "Widget" "Acme" []), none, []⟩
    let gadget : Head := ⟨.extension (.foreign "Gadget" "Umbrella" []), none, []⟩
    let tree : Tree := node content [absent, node widget [node gadget []], node content []]
    let setup : Setup := { registry := { trustedModules := [languageModule, "Acme"] } }
    let operations : List SetupOperation :=
      [.trust "Contoso", .configure { trustedModules := ["Umbrella"] }]
    let later : Setup := ⟨(setup.run operations).registry, {}⟩
    (∀ operation ∈ operations, operation.setsPolicy = false) ∧
      (∀ operation ∈ operations, operation.onlyTrusts = true) ∧ tree.stop? setup = some 2 ∧
      (tree.dump setup 0).succeeded = false ∧ tree.stop? later = none ∧
      (tree.dump setup 0).chars <+: (tree.dump later 0).chars := by
  intro content widget gadget tree setup operations later
  have hoperations : ∀ operation ∈ operations, operation.setsPolicy = false := by decide
  have htrusts : ∀ operation ∈ operations, operation.onlyTrusts = true := by decide
  have hstop : tree.stop? setup = some 2 := by decide
  obtain ⟨-, hstopped, htrusted⟩ := dump_after_growth setup operations hoperations tree {}
  exact ⟨hoperations, htrusts, hstop, (hstopped 2 hstop).1, by decide, (htrusted htrusts rfl).1⟩

end Tree

end TemplateDump
