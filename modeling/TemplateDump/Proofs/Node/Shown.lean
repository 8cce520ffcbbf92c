import TemplateDump.Line
import TemplateDump.Proofs.Registry.Registering
import TemplateDump.Proofs.Span
import Mathlib.Data.List.Nodup

/-!
# What a dump shows of a node

A dump shows the class of a node, its source span without the directory of the file, and its
fields.  The classes are the twenty-one kinds of the language, its class for directives at design
time, and the six classes of components; a foreign class is told apart by its label and module.

* `label_nodeClass`, `length_shownFields` — the class of a node decides its label and the number of
  its fields;
* `shortName_inj`, `shortName_isWord` — the short labels of the standard classes are different
  words;
* `fields?_ofComponents` — a registry with the components in it knows all nodes of these classes,
  and gives the fields that a dump shows of them.
-/

namespace TemplateDump

/-! ## Classes -/

/-- The class of a node. -/
inductive NodeClass where
  | construct (kind : Kind)
  | designTimeDirective
  | component (kind : ComponentKind)
  | foreign (label : String) (moduleName : String)
deriving DecidableEq

/-- How many fields a construct of a kind shows. -/
def Kind.fieldCount : Kind → Nat
  | .document => 0
  | .namespaceDeclaration => 1
  | .usingDirective => 1
  | .classDeclaration => 4
  | .methodDeclaration => 3
  | .fieldDeclaration => 3
  | .directive => 1
  | .directiveToken => 1
  | .malformedDirective => 1
  | .token => 2
  | .htmlContent => 0
  | .htmlAttribute => 2
  | .htmlAttributeValue => 1
  | .csharpExpression => 0
  | .csharpCode => 0
  | .csharpExpressionAttributeValue => 1
  | .csharpCodeAttributeValue => 1
  | .tagHelper => 2
  | .tagHelperBody => 0
  | .tagHelperProperty => 3
  | .tagHelperHtmlAttribute => 2
  | .extension => 0

/-- How many fields a component of a class shows. -/
def ComponentKind.fieldCount : ComponentKind → Nat
  | .htmlElement => 1
  | .htmlBlock => 1
  | .component => 2
  | .componentAttribute => 2
  | .routeAttribute => 1
  | .ref => 2

namespace NodeClass

/-- The label of the nodes of a class. -/
def label : NodeClass → String
  | construct kind => kind.label
  | designTimeDirective => (Extension.designTimeDirective : Extension Token).label
  | component kind => kind.label
  | foreign label _ => label

/-- The label as a dump shows it. -/
def shortName (nodeClass : NodeClass) : List Char :=
  shortLabelChars nodeClass.label.toList

/-- How many fields the nodes of a class show; those of a foreign class are not known. -/
def fieldCount : NodeClass → Nat
  | construct kind => kind.fieldCount
  | designTimeDirective => 0
  | component kind => kind.fieldCount
  | foreign _ _ => 0

/-- A class of the language or of the package of components. -/
def isStandard : NodeClass → Bool
  | foreign _ _ => false
  | _ => true

/-- The classes of the language and of the package of components. -/
def standard : List NodeClass :=
  Kind.all.map construct ++ designTimeDirective :: ComponentKind.all.map component

theorem mem_standard {nodeClass : NodeClass} (h : nodeClass.isStandard = true) :
    nodeClass ∈ standard := by
  cases nodeClass with
  | construct kind => cases kind <;> decide
  | designTimeDirective => decide
  | component kind => cases kind <;> decide
  | foreign label moduleName => exact absurd h (by simp [isStandard])

/-- The short labels of the standard classes are different words. -/
theorem standard_words : (standard.map shortName).Nodup ∧
    ∀ c ∈ standard, c.shortName ≠ [] ∧ ' ' ∉ c.shortName ∧ '\n' ∉ c.shortName := by
  decide +kernel

theorem shortName_isWord {nodeClass : NodeClass} (h : nodeClass.isStandard = true) :
    nodeClass.shortName ≠ [] ∧ ' ' ∉ nodeClass.shortName ∧ '\n' ∉ nodeClass.shortName :=
  standard_words.2 nodeClass (mem_standard h)

/-- A line starts, behind its indentation, with a character that is not a blank. -/
theorem ne_blank_of_mem_head?_append {nodeClass : NodeClass} (h : nodeClass.isStandard = true)
    {l : List Char} {c : Char} (hc : c ∈ (nodeClass.shortName ++ l).head?) : c ≠ ' ' := by
  obtain ⟨hne, hblank, -⟩ := shortName_isWord h
  obtain ⟨a, more, hname⟩ := List.exists_cons_of_ne_nil hne
  rw [hname, List.cons_append, List.head?_cons, Option.mem_some_iff] at hc
  rintro rfl
  rw [hname, hc] at hblank
  exact hblank List.mem_cons_self

/-- A standard class is known from its short label. -/
theorem shortName_inj {first second : NodeClass} (hfirst : first.isStandard = true)
    (hsecond : second.isStandard = true) (h : first.shortName = second.shortName) :
    first = second :=
  List.inj_on_of_nodup_map standard_words.1 (mem_standard hfirst) (mem_standard hsecond) h

end NodeClass

/-! ## Contents -/

namespace Payload

/-- The class of a node with these contents. -/
def nodeClass : Payload Token → NodeClass
  | construct c => .construct c.kind
  | extension (.component c) => .component c.kind
  | extension .designTimeDirective => .designTimeDirective
  | extension (.foreign label moduleName _) => .foreign label moduleName

/-- The fields that a dump shows of these contents, with nothing for one without content.  Those of
a foreign node are not known. -/
def shownFields : Payload Token → List String
  | construct c => c.fields
  | extension (.component c) => c.fields.map (·.getD "")
  | extension _ => []

theorem label_nodeClass (payload : Payload Token) : payload.nodeClass.label = payload.label := by
  rcases payload with c | c | _ | ⟨label, moduleName, fields⟩ <;> rfl

theorem length_shownFields (payload : Payload Token) :
    payload.shownFields.length = payload.nodeClass.fieldCount := by
  rcases payload with c | c | _ | ⟨label, moduleName, fields⟩
  · cases c <;> rfl
  · cases c <;> rfl
  · rfl
  · rfl

end Payload

/-! ## Nodes -/

/-- What a dump shows of a node. -/
structure Shown where
  nodeClass : NodeClass
  source : Option SourceSpan
  fields : List String
deriving DecidableEq

/-- What a dump shows of a node. -/
def Annotated.shown (node : Head) : Shown :=
  ⟨node.payload.nodeClass, node.source.map SourceSpan.shown, node.payload.shownFields⟩

/-! ## Nodes with components registered -/

/-- The registry in which the components are registered and nothing else. -/
def Registry.ofComponents : Registry :=
  ({} : Registry).registerComponents

theorem Registry.lookup_ofComponents (kind : ComponentKind) :
    ofComponents.lookup kind.label = some (componentShape kind) := by
  cases kind <;> rfl

theorem Registry.fields?_ofComponents {node : Node}
    (h : node.payload.nodeClass.isStandard = true) :
    ∃ fields, ofComponents.fields? node = .ok fields ∧
      fields.map (·.getD "") = node.payload.shownFields := by
  rcases node with ⟨⟨c | c | _ | ⟨label, moduleName, fields⟩, source, diagnostics⟩, children⟩
  · refine ⟨c.fields.map some, rfl, ?_⟩
    rw [List.map_map]
    exact List.map_id _
  · refine ⟨c.fields, ?_, rfl⟩
    have hshape : ofComponents.shapeOf? (.component c) = some (componentShape c.kind) :=
      shapeOf?_eq_some_iff.2 ⟨lookup_ofComponents c.kind, rfl⟩
    exact fields?_of_own_renderer rfl (resolve_eq_rendered_iff.2 ⟨_, hshape, rfl⟩)
  · exact ⟨[], rfl, rfl⟩
  · exact absurd h (by simp [Payload.nodeClass, NodeClass.isStandard])

end TemplateDump
