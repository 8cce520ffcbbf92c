import TemplateDump.Proofs.Registry.Ignoring
import TemplateDump.Proofs.Store.Unfold

/-!
# Dumps as lines

A walk over a tree and its flat listing give the same dump: `dump_eq_concat_listing` writes one line
for each listed node, in order, and `dump_eq_lines` says what comes of it.  Where every node is
known the dump is all the lines; otherwise it is the lines in front of the first unknown node.

What the tree holds behind that node makes no difference if neither the renderers nor the policy
look at the children of a node (`dump_congr_of_heads`).  A renderer that does look at them shows
something of it, and a reference shows its identifier token wherever that stands
(`dump_shows_later_nodes`).
-/

namespace TemplateDump

/-! ## Unknown nodes -/

/-- The node is an extension node with contents `e`, no shape speaks for it, and it is not
trusted. -/
def Registry.IsUnknown (registry : Registry) (node : Node) (e : Extension Token) : Prop :=
  node.payload = .extension e ∧ registry.resolve (node.withPayload e) = .unknown

/-- The node is not an unknown one. -/
def Registry.Knows (registry : Registry) (node : Node) : Prop :=
  ∀ e, ¬ registry.IsUnknown node e

/-- Constructs are known. -/
theorem Registry.knows_construct (registry : Registry) {node : Node} {c : Construct}
    (h : node.payload = .construct c) : registry.Knows node := by
  rintro e ⟨hpayload, -⟩
  rw [h] at hpayload
  exact absurd hpayload (by simp)

/-- An extension node is known exactly if it is not resolved as unknown. -/
theorem Registry.knows_extension_iff {registry : Registry} {node : Node} {e : Extension Token}
    (h : node.payload = .extension e) :
    registry.Knows node ↔ registry.resolve (node.withPayload e) ≠ .unknown := by
  constructor
  · exact fun hknows hunknown => hknows e ⟨h, hunknown⟩
  · rintro hresolve e' ⟨hpayload, hunknown⟩
    rw [h] at hpayload
    cases hpayload
    exact hresolve hunknown

theorem Registry.fields?_of_isUnknown {registry : Registry} {node : Node} {e : Extension Token}
    (h : registry.IsUnknown node e) :
    registry.fields? node = .error (.unknownNode e.label e.moduleName) := by
  obtain ⟨hpayload, hresolve⟩ := h
  rw [fields?, hpayload]
  simp only [hresolve]

theorem Registry.exists_fields?_of_knows {registry : Registry} {node : Node}
    (h : registry.Knows node) : ∃ fields, registry.fields? node = .ok fields := by
  cases hpayload : node.payload with
  | construct c => exact ⟨c.fields.map some, by rw [fields?, hpayload]⟩
  | extension e =>
    cases hresolve : registry.resolve (node.withPayload e) with
    | rendered renderer =>
      refine ⟨renderer.apply (node.withPayload e), ?_⟩
      rw [fields?, hpayload]
      simp only [hresolve]
    | basic =>
      refine ⟨[], ?_⟩
      rw [fields?, hpayload]
      simp only [hresolve]
    | unknown => exact absurd ⟨hpayload, hresolve⟩ (h e)

/-! ## The line of a listed node -/

namespace Setup

variable {setup : Setup} {node : Node}

/-- The line of a listed node with its end: the indentation, then what is written for the node
alone. -/
def wholeLine (setup : Setup) (listed : Nat × Node) : List Char :=
  List.replicate (4 * listed.1) ' ' ++ (setup.writeNode 0 listed.2).chars ++ ['\n']

/-- An unknown node stops the writing before anything of its line is written. -/
theorem writeLine_of_isUnknown {e : Extension Token} (h : setup.registry.IsUnknown node e)
    (depth : Nat) :
    setup.writeLine depth node = .stop (.unknownNode e.label e.moduleName) := by
  have hline : setup.line? depth node = .error (.unknownNode e.label e.moduleName) := by
    rw [line?, Registry.fields?_of_isUnknown h]
    rfl
  rw [writeLine, writeNode, hline]
  exact Output.append_of_error rfl _

/-- The depth of a known node shows in the indentation only. -/
theorem writeLine_of_knows (h : setup.registry.Knows node) (depth : Nat) :
    setup.writeLine depth node = .ofChars (setup.wholeLine (depth, node)) := by
  obtain ⟨fields, hfields⟩ := Registry.exists_fields?_of_knows h
  have hok : (setup.writeNode 0 node).error = none := by
    simp only [writeNode, line?, hfields]
    rfl
  have herror := (setup.error_writeNode_depth depth node).trans hok
  rw [writeLine, Output.append_of_success herror, chars_writeNode_depth hok]
  rfl

/-- The lines of known nodes, one after the other. -/
theorem concat_writeLine_of_knows {listed : List (Nat × Node)}
    (h : ∀ p ∈ listed, setup.registry.Knows p.2) :
    Output.concat (listed.map fun p => setup.writeLine p.1 p.2) =
      .ofChars (listed.flatMap setup.wholeLine) := by
  rw [← Output.concat_map_ofChars]
  refine congrArg Output.concat (List.map_congr_left fun p hp => ?_)
  exact writeLine_of_knows (h p hp) p.1

/-- The lines of known nodes up to an unknown one. -/
theorem concat_writeLine_of_isUnknown {before : List (Nat × Node)} {e : Extension Token}
    (hbefore : ∀ p ∈ before, setup.registry.Knows p.2) (h : setup.registry.IsUnknown node e)
    (depth : Nat) (after : List (Nat × Node)) :
    Output.concat ((before ++ (depth, node) :: after).map fun p => setup.writeLine p.1 p.2) =
      ⟨before.flatMap setup.wholeLine, some (.unknownNode e.label e.moduleName)⟩ := by
  have hstop : Output.concat (((depth, node) :: after).map fun p => setup.writeLine p.1 p.2) =
      .stop (.unknownNode e.label e.moduleName) := by
    rw [List.map_cons, Output.concat_cons, writeLine_of_isUnknown h]
    exact Output.append_of_error rfl _
  rw [List.map_append, Output.concat_append, concat_writeLine_of_knows hbefore, hstop,
    Output.append_of_success rfl]
  simp [Output.ofChars, Output.stop]

/-- Writes the line of a node as if nothing were below it, and ends it. -/
def writeHead (setup : Setup) (listed : Nat × Head) : Output :=
  setup.writeLine listed.1 ⟨listed.2, []⟩

theorem map_writeLine_of_ignoresChildren (h : setup.registry.IgnoresChildren)
    (listed : List (Nat × Node)) :
    listed.map (fun p => setup.writeLine p.1 p.2) =
      (listed.map fun p => (p.1, p.2.toAnnotated)).map setup.writeHead := by
  rw [List.map_map]
  refine List.map_congr_left fun p _ => ?_
  have hnode : setup.writeNode p.1 p.2 = setup.writeNode p.1 ⟨p.2.toAnnotated, []⟩ := by
    refine h.writeNode_congr ?_ p.1
    rfl
  simp only [Function.comp_apply, writeHead, writeLine, hnode]

end Setup

/-! ## The first unknown node -/

/-- Either all listed nodes are known, or the list can be cut at the first unknown one. -/
theorem Registry.knows_or_exists_first (registry : Registry) (listed : List (Nat × Node)) :
    (∀ p ∈ listed, registry.Knows p.2) ∨
      ∃ before depth node after e, listed = before ++ (depth, node) :: after ∧
        (∀ p ∈ before, registry.Knows p.2) ∧ registry.IsUnknown node e := by
  induction listed with
  | nil => exact .inl fun p hp => absurd hp List.not_mem_nil
  | cons p rest ih =>
    by_cases hp : registry.Knows p.2
    · rcases ih with hall | ⟨before, depth, node, after, e, hrest, hbefore, hnode⟩
      · exact .inl (List.forall_mem_cons.2 ⟨hp, hall⟩)
      · refine .inr ⟨p :: before, depth, node, after, e, ?_, ?_, hnode⟩
        · rw [hrest, List.cons_append]
        · exact List.forall_mem_cons.2 ⟨hp, hbefore⟩
    · obtain ⟨e, he⟩ := Classical.not_forall_not.1 hp
      exact .inr ⟨[], p.1, p.2, rest, e, rfl, fun q hq => absurd hq List.not_mem_nil, he⟩

/-- Whole lines are nothing, or they end in a line feed. -/
theorem Setup.wholeLines_eq_nil_or_getLast? (setup : Setup) (listed : List (Nat × Node)) :
    listed.flatMap setup.wholeLine = [] ∨
      (listed.flatMap setup.wholeLine).getLast? = some '\n' := by
  rcases List.eq_nil_or_concat listed with rfl | ⟨front, last, rfl⟩
  · exact .inl rfl
  · refine .inr ?_
    rw [List.concat_eq_append, List.flatMap_append, List.flatMap_singleton, wholeLine,
      ← List.append_assoc]
    exact List.getLast?_concat

/-! ## The dump of a tree -/

namespace Tree

mutual
/-- A dump has a line for each listed node. -/
theorem dump_eq_concat_listing (setup : Setup) (depth : Nat) : ∀ tree : Tree,
    tree.dump setup depth = .concat ((tree.listing depth).map fun p => setup.writeLine p.1 p.2)
  | absent => rfl
  | node head children => by
    rw [dump, listing, List.map_cons, Output.concat_cons,
      dumpAll_eq_concat_listing setup (depth + 1) children]

theorem dumpAll_eq_concat_listing (setup : Setup) (depth : Nat) : ∀ trees : List Tree,
    dumpAll setup depth trees =
      .concat ((listingAll depth trees).map fun p => setup.writeLine p.1 p.2)
  | [] => rfl
  | t :: rest => by
    rw [dumpAll, listingAll, List.map_append, Output.concat_append,
      dump_eq_concat_listing setup depth t, dumpAll_eq_concat_listing setup depth rest]
end

/-- A dump that is not stopped met no unknown node. -/
theorem knows_of_succeeded {setup : Setup} {tree : Tree} {depth : Nat}
    (h : (tree.dump setup depth).succeeded = true) :
    ∀ p ∈ tree.listing depth, setup.registry.Knows p.2 := by
  obtain hall | ⟨before, d, node, after, e, hlisting, hbefore, hnode⟩ :=
    setup.registry.knows_or_exists_first (tree.listing depth)
  · exact hall
  · rw [dump_eq_concat_listing, hlisting,
      Setup.concat_writeLine_of_isUnknown hbefore hnode] at h
    exact absurd h (by simp [Output.succeeded])

/-! ## Nodes without their children -/

/-- The nodes with their depths, each without what is below it. -/
def heads (tree : Tree) : List (Nat × Head) :=
  (tree.listing 0).map fun p => (p.1, p.2.toAnnotated)

/-- Where children are ignored, a dump has a line for each head. -/
theorem dump_eq_concat_heads {setup : Setup} (hignores : setup.registry.IgnoresChildren)
    (tree : Tree) : tree.dump setup 0 = .concat (tree.heads.map setup.writeHead) := by
  rw [dump_eq_concat_listing, Setup.map_writeLine_of_ignoresChildren hignores, heads]

/-- Where children are ignored, trees that agree up to a node that stops one of the dumps have the
same dump. -/
theorem dump_congr_of_heads {setup : Setup} (hignores : setup.registry.IgnoresChildren)
    {tree other : Tree} {k : Nat}
    (hstops : (Output.concat (((tree.listing 0).take k).map
      fun p => setup.writeLine p.1 p.2)).succeeded = false)
    (hheads : other.heads.take k = tree.heads.take k) : other.dump setup 0 = tree.dump setup 0 := by
  have hdump : ∀ t : Tree, t.dump setup 0 = .concat ((t.heads.take k).map setup.writeHead) ++
      .concat ((t.heads.drop k).map setup.writeHead) := by
    intro t
    rw [dump_eq_concat_heads hignores, ← Output.concat_append, ← List.map_append,
      List.take_append_drop]
  rw [Setup.map_writeLine_of_ignoresChildren hignores, List.map_take, ← heads] at hstops
  cases herror : (Output.concat ((tree.heads.take k).map setup.writeHead)).error with
  | none =>
    rw [Output.succeeded, herror] at hstops
    exact absurd hstops (by decide)
  | some error =>
    rw [hdump other, hdump tree, hheads, Output.append_of_error herror,
      Output.append_of_error herror]

/-! ## The dump -/

/-- **A dump is lines.**  Any serializer writes it for a node of a store that unfolds to the tree.
Where all nodes are known, it is the whole lines of the listing.  Otherwise it is the whole lines in
front of the first unknown node, with the error that names that node.  If neither the renderers nor
the policy look at the children of a node, every tree that has the same nodes up to that one has the
same dump. -/
theorem dump_eq_lines (setup : Setup) (tree : Tree) :
    (∀ (serializer : Serializer) (store : Store) (root : Option NodeId),
      store.size ≤ UInt32.size → store.unfold store.size root = tree →
      serializer.options = setup.options →
      (serializer.serialize setup.registry store root).1 = tree.dump setup 0) ∧
    ((∀ p ∈ tree.listing 0, setup.registry.Knows p.2) →
      tree.dump setup 0 = ⟨(tree.listing 0).flatMap setup.wholeLine, none⟩) ∧
    ((∃ p ∈ tree.listing 0, ¬ setup.registry.Knows p.2) →
      ∃ before depth node after e, tree.listing 0 = before ++ (depth, node) :: after ∧
        (∀ p ∈ before, setup.registry.Knows p.2) ∧ setup.registry.IsUnknown node e ∧
        (tree.dump setup 0).succeeded = false ∧
        (tree.dump setup 0).chars = before.flatMap setup.wholeLine ∧
        ((tree.dump setup 0).chars = [] ∨ (tree.dump setup 0).chars.getLast? = some '\n') ∧
        (tree.dump setup 0).error.map DumpError.message =
          some ("Unknown node type: " ++ e.label ++ " (origin " ++ e.moduleName ++ ")") ∧
        (setup.registry.IgnoresChildren → ∀ other : Tree,
          other.heads.take (before.length + 1) = tree.heads.take (before.length + 1) →
          other.dump setup 0 = tree.dump setup 0)) := by
  refine ⟨?_, ?_, ?_⟩
  · intro serializer store root hsize htree hoptions
    rw [serializer.serialize_eq_dump_unfold _ hsize, htree, hoptions]
  · intro hall
    rw [dump_eq_concat_listing, Setup.concat_writeLine_of_knows hall]
    rfl
  · rintro ⟨p, hp, hunknown⟩
    obtain hall | ⟨before, depth, node, after, e, hlisting, hbefore, hnode⟩ :=
      setup.registry.knows_or_exists_first (tree.listing 0)
    · exact absurd (hall p hp) hunknown
    have hdump : tree.dump setup 0 =
        ⟨before.flatMap setup.wholeLine, some (.unknownNode e.label e.moduleName)⟩ := by
      rw [dump_eq_concat_listing, hlisting, Setup.concat_writeLine_of_isUnknown hbefore hnode]
    have hstops : (Output.concat (((tree.listing 0).take (before.length + 1)).map
        fun p => setup.writeLine p.1 p.2)).succeeded = false := by
      rw [hlisting, List.take_append, List.take_of_length_le (Nat.le_succ _),
        Nat.add_sub_cancel_left, List.take_succ_cons, List.take_zero,
        Setup.concat_writeLine_of_isUnknown hbefore hnode]
      rfl
    refine ⟨before, depth, node, after, e, hlisting, hbefore, hnode, ?_⟩
    refine ⟨?_, ?_, ?_, ?_, fun hignores other => dump_congr_of_heads hignores hstops⟩
    · rw [hdump]
      rfl
    · rw [hdump]
    · rw [hdump]
      exact setup.wholeLines_eq_nil_or_getLast? before
    · rw [hdump]
      rfl

/-- The third line is that of an unknown node, so the fourth is missing too. -/
example :
    let content : Head := ⟨.construct .htmlContent, none, []⟩
    let widget : Head := ⟨.extension (.foreign "Widget" "Acme" []), none, []⟩
    (node content [absent, node content [node widget []], node content []]).dump {} 0 =
      ⟨"HtmlContent\n    HtmlContent\n".toList, some (.unknownNode "Widget" "Acme")⟩ := by
  decide

/-- What stands behind the first unknown node may show in front of it.  A renderer with a field for
each child tells two trees apart that differ only behind that node.  The identifier token of a
reference stands behind that node, as the last child of the root, and the line of the reference
follows its content. -/
theorem dump_shows_later_nodes :
    let counting : Registry :=
      { shapes := [⟨"Widget", "Acme", .external (some (.custom fun node =>
          node.children.map fun _ => some "child"))⟩] }
    let widget : Head := ⟨.extension (.foreign "Widget" "Acme" []), none, []⟩
    let gadget : Head := ⟨.extension (.foreign "Gadget" "Umbrella" []), none, []⟩
    let short : Tree := node widget [node gadget []]
    let long : Tree := node widget [node gadget [], node gadget []]
    let components : Setup := { registry := ({} : Registry).registerComponents }
    let store : Store := ⟨#[⟨⟨.construct (.token ⟨.csharp, "a"⟩), none, []⟩, []⟩,
      ⟨⟨.construct .htmlContent, none, []⟩, [some ⟨2⟩, some ⟨3⟩, some ⟨0⟩]⟩,
      ⟨⟨.extension (.component (.ref (some ⟨0⟩) none)), none, []⟩, []⟩,
      ⟨⟨.extension (.foreign "Gadget" "Umbrella" []), none, []⟩, []⟩]⟩
    short.heads.take 2 = long.heads.take 2 ∧
    short.dump ⟨counting, {}⟩ 0 =
      ⟨"Widget - child\n".toList, some (.unknownNode "Gadget" "Umbrella")⟩ ∧
    long.dump ⟨counting, {}⟩ 0 =
      ⟨"Widget - child - child\n".toList, some (.unknownNode "Gadget" "Umbrella")⟩ ∧
    store.dump components (some ⟨1⟩) =
      ⟨"HtmlContent\n    RefExtensionNode - a - Element\n".toList,
        some (.unknownNode "Gadget" "Umbrella")⟩ ∧
    (store.edit ⟨0⟩ (.construct (.content "b"))).dump components (some ⟨1⟩) =
      ⟨"HtmlContent\n    RefExtensionNode - b - Element\n".toList,
        some (.unknownNode "Gadget" "Umbrella")⟩ := by
  refine ⟨rfl, ?_, ?_, ?_, ?_⟩ <;> decide +kernel

end Tree

end TemplateDump
