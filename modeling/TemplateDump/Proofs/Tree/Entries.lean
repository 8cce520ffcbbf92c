import TemplateDump.Proofs.Diagnostic.Entry
import TemplateDump.Proofs.Output
import TemplateDump.Proofs.Registry.Ignoring
import TemplateDump.Proofs.Tree.Lines
import Mathlib.Data.List.TakeWhile

/-!
# Entries of diagnostics in a dump

Whether diagnostics are shown decides what stands at the ends of the lines and nothing else: which
nodes have a line, and where a dump stops, depends on the registry alone.

* `writeNode_shown` — a line with diagnostics is the line without them and their entries;
* `chars_dump` — the text of a dump is the lines of the nodes in front of the first that stops it;
* `dump_withoutDiagnostics` — where they are hidden, diagnostics may be taken from the tree, if
  neither the renderers nor the policy look at them;
* `diagnostics_only_append` — the two dumps of a tree side by side.
-/

namespace TemplateDump

/-! ## Taking diagnostics away -/

/-- The same contents at the same place, without diagnostics. -/
def Annotated.withoutDiagnostics {α : Type} (a : Annotated α) : Annotated α :=
  { a with diagnostics := [] }

namespace Tree

mutual
/-- The tree with the diagnostics of all nodes taken away. -/
def withoutDiagnostics : Tree → Tree
  | absent => absent
  | node head children => node head.withoutDiagnostics (withoutDiagnosticsAll children)

/-- The trees with the diagnostics of all nodes taken away. -/
def withoutDiagnosticsAll : List Tree → List Tree
  | [] => []
  | t :: rest => t.withoutDiagnostics :: withoutDiagnosticsAll rest
end

end Tree

/-- The node with its diagnostics and those of all nodes below it taken away. -/
def Node.withoutDiagnostics (node : Node) : Node :=
  ⟨node.toAnnotated.withoutDiagnostics, Tree.withoutDiagnosticsAll node.children⟩

/-- The extension node with its diagnostics and those of all nodes below it taken away. -/
def ExtensionNode.withoutDiagnostics (node : ExtensionNode) : ExtensionNode :=
  ⟨node.toAnnotated.withoutDiagnostics, Tree.withoutDiagnosticsAll node.children⟩

/-- Neither the renderers nor the policy look at diagnostics. -/
abbrev Registry.IgnoresDiagnostics (registry : Registry) : Prop :=
  registry.Ignores ExtensionNode.withoutDiagnostics

/-- The fields of a node do not depend on diagnostics. -/
theorem Registry.IgnoresDiagnostics.fields?_eq {registry : Registry}
    (h : registry.IgnoresDiagnostics) (node : Node) :
    registry.fields? node.withoutDiagnostics = registry.fields? node :=
  Ignores.fields?_eq h rfl fun _ => rfl

/-! ## The line of a node -/

namespace Setup

variable (registry : Registry) (depth : Nat) (node : Node)

/-- A line with diagnostics is the line without them, and their entries behind it. -/
theorem writeNode_shown :
    (⟨registry, { includeDiagnostics := true }⟩ : Setup).writeNode depth node =
      (⟨registry, { includeDiagnostics := false }⟩ : Setup).writeNode depth node ++
        .ofChars (diagnosticsChars node.diagnostics) := by
  cases hfields : registry.fields? node with
  | error error =>
    simp only [writeNode, line?, hfields]
    exact (Output.append_of_error rfl _).symm
  | ok fields =>
    simp only [writeNode, line?, hfields]
    refine Eq.trans ?_ (Output.append_of_success rfl _).symm
    -- Without diagnostics the line is its body.
    show Output.ofChars (Line.bodyChars _ ++ _) = ⟨(Line.bodyChars _ ++ []) ++ _, none⟩
    rw [List.append_nil]
    rfl

variable {registry} in
/-- Where they are hidden, the diagnostics of a node do not matter. -/
theorem writeLine_hidden_withoutDiagnostics (h : registry.IgnoresDiagnostics) :
    (⟨registry, { includeDiagnostics := false }⟩ : Setup).writeLine depth node.withoutDiagnostics =
      (⟨registry, { includeDiagnostics := false }⟩ : Setup).writeLine depth node := by
  simp only [writeLine, writeNode, line?, h.fields?_eq]
  rfl

end Setup

/-! ## The nodes that a dump covers -/

namespace Tree

variable {setup : Setup} {tree : Tree}

/-- The nodes that have a line in the dump, with their depths: those in front of the first that
stops it. -/
def covered (setup : Setup) (tree : Tree) : List (Nat × Node) :=
  (tree.listing 0).takeWhile fun p => (setup.writeNode p.1 p.2).succeeded

/-- The first node that cannot be written stops a dump. -/
theorem error_dump :
    (tree.dump setup 0).error =
      (tree.listing 0).findSome? fun p => (setup.writeNode p.1 p.2).error := by
  rw [dump_eq_concat_listing]
  exact Output.error_concat_lines _

/-- The text of a dump is the lines of the nodes that it covers. -/
theorem chars_dump :
    (tree.dump setup 0).chars =
      (tree.covered setup).flatMap fun p => (setup.writeNode p.1 p.2).chars ++ ['\n'] := by
  rw [dump_eq_concat_listing]
  exact Output.chars_concat_lines (fun _ h => Setup.chars_writeNode_of_stopped h) _

/-- A dump that does not stop covers all nodes. -/
theorem covered_of_succeeded (h : (tree.dump setup 0).succeeded = true) :
    tree.covered setup = tree.listing 0 := by
  rw [Output.succeeded, error_dump, Option.isNone_iff_eq_none, List.findSome?_eq_none_iff] at h
  refine List.takeWhile_eq_self_iff.2 fun p hp => ?_
  rw [Output.succeeded, h p hp, Option.isNone_none]

/-! ## Trees without diagnostics -/

mutual
theorem dump_withoutDiagnostics {registry : Registry} (h : registry.IgnoresDiagnostics)
    (depth : Nat) : ∀ tree : Tree,
    tree.withoutDiagnostics.dump ⟨registry, { includeDiagnostics := false }⟩ depth =
      tree.dump ⟨registry, { includeDiagnostics := false }⟩ depth
  | absent => rfl
  | node head children => by
    have hline := Setup.writeLine_hidden_withoutDiagnostics depth ⟨head, children⟩ h
    rw [Node.withoutDiagnostics] at hline
    rw [withoutDiagnostics, dump, dump, hline, dumpAll_withoutDiagnosticsAll h (depth + 1) children]

theorem dumpAll_withoutDiagnosticsAll {registry : Registry} (h : registry.IgnoresDiagnostics)
    (depth : Nat) : ∀ trees : List Tree,
    dumpAll ⟨registry, { includeDiagnostics := false }⟩ depth (withoutDiagnosticsAll trees) =
      dumpAll ⟨registry, { includeDiagnostics := false }⟩ depth trees
  | [] => rfl
  | t :: rest => by
    rw [withoutDiagnosticsAll, dumpAll, dumpAll, dump_withoutDiagnostics h depth t,
      dumpAll_withoutDiagnosticsAll h depth rest]
end

/-! ## The two dumps of a tree -/

/-- **Showing diagnostics only adds to a dump.**  With diagnostics and without them the dump goes
through or stops with the same error, and covers the same nodes.  The line of each of them with
diagnostics is the line without them, followed by nothing if the node has none and otherwise by a
bar and the entries in order with single blanks between them; and so it is for the line of any node
at any depth.  Where they are hidden, and neither renderers nor policy look at them, trees that
differ in diagnostics alone have the same dump. -/
theorem diagnostics_only_append (registry : Registry) (tree : Tree) :
    let shown : Setup := ⟨registry, { includeDiagnostics := true }⟩
    let hidden : Setup := ⟨registry, { includeDiagnostics := false }⟩
    let ending : Node → List Char := fun node =>
      if node.diagnostics = [] then []
      else " | ".toList ++ [' '].intercalate (node.diagnostics.map Diagnostic.entryChars)
    (tree.dump shown 0).succeeded = (tree.dump hidden 0).succeeded ∧
    (tree.dump shown 0).error = (tree.dump hidden 0).error ∧
    tree.covered shown = tree.covered hidden ∧
    ((tree.dump hidden 0).succeeded = true → tree.covered hidden = tree.listing 0) ∧
    (tree.dump hidden 0).chars =
      (tree.covered hidden).flatMap (fun p => (hidden.writeNode p.1 p.2).chars ++ ['\n']) ∧
    (tree.dump shown 0).chars =
      (tree.covered hidden).flatMap
        (fun p => (hidden.writeNode p.1 p.2).chars ++ ending p.2 ++ ['\n']) ∧
    (∀ depth node, shown.writeNode depth node =
      hidden.writeNode depth node ++ .ofChars (ending node)) ∧
    (registry.IgnoresDiagnostics → ∀ other : Tree,
      other.withoutDiagnostics = tree.withoutDiagnostics →
      other.dump hidden 0 = tree.dump hidden 0) := by
  intro shown hidden ending
  have hnode : ∀ depth node, shown.writeNode depth node =
      hidden.writeNode depth node ++ .ofChars (ending node) := by
    intro depth node
    rw [Setup.writeNode_shown, diagnosticsChars_eq]
  have hnodeError : ∀ depth node,
      (shown.writeNode depth node).error = (hidden.writeNode depth node).error := by
    intro depth node
    rw [hnode]
    exact Output.error_append_ofChars _ _
  have herror : (tree.dump shown 0).error = (tree.dump hidden 0).error := by
    rw [error_dump, error_dump]
    simp only [hnodeError]
  have hcovered : tree.covered shown = tree.covered hidden := by
    simp only [covered, Output.succeeded, hnodeError]
  refine ⟨?_, herror, hcovered, covered_of_succeeded, chars_dump, ?_, hnode, ?_⟩
  · rw [Output.succeeded, herror, Output.succeeded]
  · rw [chars_dump, hcovered]
    refine List.flatMap_congr fun p hp => ?_
    have hsucceeded := List.mem_takeWhile_imp hp
    have hwritten : (hidden.writeNode p.1 p.2).error = none :=
      Option.isNone_iff_eq_none.1 hsucceeded
    rw [hnode, Output.append_of_success hwritten]
    rfl
  · intro hignores other hother
    rw [← dump_withoutDiagnostics hignores 0 other, hother, dump_withoutDiagnostics hignores]

/-- A renderer that gives the fields a node offers, and a policy that goes by the module, do not
look at diagnostics.  So it does not show which of two nodes has a diagnostic. -/
theorem dump_hidden_of_moved_diagnostic :
    let registry : Registry :=
      { shapes :=
          [Registry.componentShape .ref,
            ⟨"Widget", "Acme", .external (some (.custom fun node => node.payload.offeredFields))⟩]
        policy := some fun node => node.payload.moduleName == "Umbrella" }
    let widget : List Diagnostic → Head := fun diagnostics =>
      ⟨.extension (.foreign "Widget" "Acme" [some "x", none]), none, diagnostics⟩
    let gadget : List Diagnostic → Head := fun diagnostics =>
      ⟨.extension (.foreign "Gadget" "Umbrella" []), none, diagnostics⟩
    let unclosed : Diagnostic := ⟨⟨1004⟩, .error, {}, ["div"]⟩
    let tree : Tree := node (widget [unclosed]) [absent, node (gadget []) []]
    let other : Tree := node (widget []) [absent, node (gadget [unclosed]) []]
    registry.IgnoresDiagnostics ∧ other.withoutDiagnostics = tree.withoutDiagnostics ∧
      other.dump ⟨registry, { includeDiagnostics := false }⟩ 0 =
        tree.dump ⟨registry, { includeDiagnostics := false }⟩ 0 ∧
      tree.dump ⟨registry, { includeDiagnostics := false }⟩ 0 =
        .ofChars "Widget - x - \n    Gadget\n".toList := by
  intro registry widget gadget unclosed tree other
  have hignores : registry.IgnoresDiagnostics := by
    refine ⟨?apply_renderer, ?apply_policy⟩
    case apply_renderer =>
      intro shape hshape renderer hrenderer node
      rcases List.mem_cons.1 hshape with rfl | hshape
      · cases hrenderer
        rfl
      · obtain rfl := List.mem_singleton.1 hshape
        cases hrenderer
        rfl
    case apply_policy =>
      intro policy hpolicy node
      cases hpolicy
      rfl
  obtain ⟨-, -, -, -, -, -, -, hdump⟩ := diagnostics_only_append registry tree
  exact ⟨hignores, rfl, hdump hignores other rfl, by decide⟩

end Tree

end TemplateDump
