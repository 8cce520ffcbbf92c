import TemplateDump.Proofs.Diagnostic.Entry
import TemplateDump.Proofs.Text.Escape
import TemplateDump.Proofs.Tree.Lines
import Mathlib.Algebra.GroupWithZero.Nat

/-!
# How many lines a dump has

Every node has a line of its own, and fields cannot break it, since they are escaped.  But the label
of a node and the names of the files in its spans stand on the line as they are, so that a line feed
in one of them breaks the line in two.

* `count_lineFeed_lineChars` — the line feeds of a line are those of its label and file names;
* `count_lineFeed_dump` — a dump has one line feed for each node and these beside;
* `count_lineFeed_dump_eq_length_iff` — so it has as many lines as there are nodes exactly if no
  label and no file name that is shown holds a line feed.
-/

namespace TemplateDump

/-! ## Line feeds in the parts of a line -/

/-- The line feeds in the name of the file. -/
def SourceSpan.lineFeeds (s : SourceSpan) : Nat :=
  (fileNameChars s.file.toList).count '\n'

theorem SourceSpan.count_lineFeed_chars (s : SourceSpan) : s.chars.count '\n' = s.lineFeeds := by
  have hnumber : ∀ i : Int, (Text.intDigits i).count '\n' = 0 := fun i =>
    List.count_eq_zero.2 (Text.lineFeed_not_mem_intDigits i)
  rw [chars_eq, lineFeeds]
  simp [List.count_append, hnumber]

theorem Diagnostic.count_lineFeed_entryChars (d : Diagnostic) :
    d.entryChars.count '\n' = d.span.lineFeeds := by
  have hseverity : d.severity.label.toList.count '\n' = 0 :=
    List.count_eq_zero.2 (Severity.not_mem_label (by decide) d.severity)
  have hcode : d.id.codeChars.count '\n' = 0 :=
    List.count_eq_zero.2 (DiagnosticId.not_mem_codeChars (by decide) d.id)
  have hdigest : d.digest.toList.count '\n' = 0 :=
    List.count_eq_zero.2 (Diagnostic.not_mem_digest (by decide) d)
  simp [entryChars, List.count_append, SourceSpan.count_lineFeed_chars, hseverity, hcode, hdigest]

/-- Blanks between texts add no line feeds. -/
theorem count_lineFeed_intercalate (texts : List (List Char)) :
    ([' '].intercalate texts).count '\n' = (texts.map (·.count '\n')).sum := by
  induction texts with
  | nil => rfl
  | cons text rest ih =>
    cases rest with
    | nil => simp [List.intercalate]
    | cons next more =>
      rw [List.intercalate_cons_cons, List.count_append, List.count_append, ih, List.map_cons,
        List.sum_cons]
      simp

theorem count_lineFeed_diagnosticsChars (diagnostics : List Diagnostic) :
    (diagnosticsChars diagnostics).count '\n' =
      (diagnostics.map (·.span.lineFeeds)).sum := by
  cases diagnostics with
  | nil => rfl
  | cons d rest =>
    rw [diagnosticsChars, List.count_append, count_lineFeed_intercalate, List.map_map]
    · simp [Function.comp_def, Diagnostic.count_lineFeed_entryChars]
    · simp

/-- The ending that a label loses holds no line feed. -/
theorem count_lineFeed_shortLabelChars (label : List Char) :
    (shortLabelChars label).count '\n' = label.count '\n' := by
  by_cases h : nodeSuffix.toList <:+ label
  · obtain ⟨front, rfl⟩ := h
    have hsuffix : nodeSuffix.toList.count '\n' = 0 := by decide
    rw [shortLabelChars_append_suffix, List.count_append, hsuffix, Nat.add_zero]
  · rw [shortLabelChars, if_neg]
    rwa [List.isSuffixOf_iff_suffix]

/-! ## Line feeds in a line -/

theorem count_lineFeed_sourceChars (source : Option SourceSpan) :
    (sourceChars source).count '\n' = (source.map SourceSpan.lineFeeds).getD 0 := by
  cases source with
  | none => rfl
  | some span =>
    have hseparator : Text.separator.toList.count '\n' = 0 := by decide
    rw [sourceChars, List.count_append, hseparator, SourceSpan.count_lineFeed_chars, Nat.zero_add]
    rfl

theorem lineFeed_not_mem_fieldChars (field : Field) : '\n' ∉ fieldChars field := by
  intro h
  rcases List.mem_append.1 h with hseparator | hfield
  · exact absurd hseparator (by decide)
  · exact Text.lineFeed_not_mem_escapeChars _ hfield

/-- The line feeds of a line are those of its label and of the file names on it. -/
theorem count_lineFeed_lineChars (line : Line) :
    line.chars.count '\n' = line.label.toList.count '\n' +
      (line.source.map SourceSpan.lineFeeds).getD 0 +
      (line.diagnostics.map (·.span.lineFeeds)).sum := by
  have hindent : (indentChars line.depth).count '\n' = 0 :=
    List.count_eq_zero.2 (lineFeed_not_mem_indentChars line.depth)
  have hfields : (line.fields.flatMap fieldChars).count '\n' = 0 := by
    refine List.count_eq_zero.2 fun h => ?_
    obtain ⟨field, _, hfield⟩ := List.mem_flatMap.1 h
    exact lineFeed_not_mem_fieldChars field hfield
  rw [Line.chars, Line.bodyChars, List.count_append, List.count_append, List.count_append,
    List.count_append, hindent, hfields, count_lineFeed_shortLabelChars,
    count_lineFeed_sourceChars, count_lineFeed_diagnosticsChars, Nat.zero_add, Nat.add_zero]

/-! ## Line feeds in a dump -/

namespace Setup

/-- The diagnostics that are shown of a node. -/
def shownDiagnostics (setup : Setup) (node : Node) : List Diagnostic :=
  if setup.options.includeDiagnostics then node.diagnostics else []

/-- The line feeds that the label and the file names of a node bring into its line. -/
def lineFeeds (setup : Setup) (node : Node) : Nat :=
  node.payload.label.toList.count '\n' + (node.source.map SourceSpan.lineFeeds).getD 0 +
    ((setup.shownDiagnostics node).map (·.span.lineFeeds)).sum

/-- The whole line of a known node has these line feeds and the one at its end. -/
theorem count_lineFeed_wholeLine {setup : Setup} {node : Node} (h : setup.registry.Knows node)
    (depth : Nat) :
    (setup.wholeLine (depth, node)).count '\n' = setup.lineFeeds node + 1 := by
  obtain ⟨fields, hfields⟩ := Registry.exists_fields?_of_knows h
  have hnode : (setup.writeNode 0 node).chars.count '\n' = setup.lineFeeds node := by
    rw [writeNode, line?, hfields]
    exact count_lineFeed_lineChars _
  have hindent : (List.replicate (4 * depth) ' ').count '\n' = 0 :=
    List.count_eq_zero.2 (lineFeed_not_mem_indentChars depth)
  rw [wholeLine, List.count_append, List.count_append, hindent, hnode, Nat.zero_add]
  rfl

theorem count_lineFeed_wholeLines {setup : Setup} {listed : List (Nat × Node)}
    (h : ∀ p ∈ listed, setup.registry.Knows p.2) :
    (listed.flatMap setup.wholeLine).count '\n' =
      listed.length + (listed.map fun p => setup.lineFeeds p.2).sum := by
  induction listed with
  | nil => rfl
  | cons p rest ih =>
    obtain ⟨hp, hrest⟩ := List.forall_mem_cons.1 h
    have hline := count_lineFeed_wholeLine hp p.1
    rw [List.flatMap_cons, List.count_append, ih hrest, hline, List.length_cons, List.map_cons,
      List.sum_cons]
    omega

/-- A node brings no line feeds exactly if its label and file names hold none. -/
theorem lineFeeds_eq_zero_iff {setup : Setup} {node : Node} :
    setup.lineFeeds node = 0 ↔
      '\n' ∉ node.payload.label.toList ∧
      (∀ span ∈ node.source, '\n' ∉ fileNameChars span.file.toList) ∧
      (setup.options.includeDiagnostics = true →
        ∀ d ∈ node.diagnostics, '\n' ∉ fileNameChars d.span.file.toList) := by
  have hsource : (node.source.map SourceSpan.lineFeeds).getD 0 = 0 ↔
      ∀ span ∈ node.source, '\n' ∉ fileNameChars span.file.toList := by
    cases node.source with
    | none => simp
    | some span => simp [SourceSpan.lineFeeds, List.count_eq_zero]
  have hdiagnostics : ((setup.shownDiagnostics node).map (·.span.lineFeeds)).sum = 0 ↔
      (setup.options.includeDiagnostics = true →
        ∀ d ∈ node.diagnostics, '\n' ∉ fileNameChars d.span.file.toList) := by
    by_cases hshown : setup.options.includeDiagnostics = true
    · rw [List.sum_eq_zero_iff_forall_eq_nat, List.forall_mem_map, shownDiagnostics, if_pos hshown]
      simp only [hshown, SourceSpan.lineFeeds, List.count_eq_zero, forall_const]
    · rw [shownDiagnostics, if_neg hshown]
      simp [hshown]
  rw [← hsource, ← hdiagnostics, ← List.count_eq_zero, lineFeeds]
  omega

end Setup

namespace Tree

/-- A dump that is not stopped has a line feed for each node, and those that labels and file names
bring. -/
theorem count_lineFeed_dump {setup : Setup} {tree : Tree}
    (h : (tree.dump setup 0).succeeded = true) :
    (tree.dump setup 0).chars.count '\n' =
      (tree.listing 0).length + ((tree.listing 0).map fun p => setup.lineFeeds p.2).sum := by
  have hknown := knows_of_succeeded h
  rw [dump_eq_concat_listing, Setup.concat_writeLine_of_knows hknown]
  exact Setup.count_lineFeed_wholeLines hknown

/-- **One line for each node, if no label and no file name breaks it.**  A dump that is not stopped
has exactly as many line feeds as there are nodes if and only if no label and no file name that is
shown, be it that of a node or of a diagnostic, holds one. -/
theorem count_lineFeed_dump_eq_length_iff {setup : Setup} {tree : Tree}
    (h : (tree.dump setup 0).succeeded = true) :
    (tree.dump setup 0).chars.count '\n' = (tree.listing 0).length ↔
      ∀ p ∈ tree.listing 0,
        '\n' ∉ p.2.payload.label.toList ∧
        (∀ span ∈ p.2.source, '\n' ∉ fileNameChars span.file.toList) ∧
        (setup.options.includeDiagnostics = true →
          ∀ d ∈ p.2.diagnostics, '\n' ∉ fileNameChars d.span.file.toList) := by
  have hsum : ((tree.listing 0).map fun p => setup.lineFeeds p.2).sum = 0 ↔
      ∀ p ∈ tree.listing 0, setup.lineFeeds p.2 = 0 := by
    rw [List.sum_eq_zero_iff_forall_eq_nat, List.forall_mem_map]
  rw [count_lineFeed_dump h]
  constructor
  · intro hcount p hp
    have hnone := hsum.1 (by omega)
    exact Setup.lineFeeds_eq_zero_iff.1 (hnone p hp)
  · intro hnames
    have hnone := hsum.2 fun p hp => Setup.lineFeeds_eq_zero_iff.2 (hnames p hp)
    omega

/-- Line feeds in a field and in the name of a directory do no harm. -/
theorem count_lineFeed_dump_of_directory :
    let quote : Head := ⟨.construct (.token ⟨.html, "a\nb"⟩), some { file := "x\ny/page" }, []⟩
    let tree : Tree := node quote [absent, node quote []]
    (tree.dump {} 0).succeeded = true ∧
      (tree.dump {} 0).chars.count '\n' = (tree.listing 0).length := by
  intro quote tree
  have h : (tree.dump {} 0).succeeded = true := by decide
  exact ⟨h, (count_lineFeed_dump_eq_length_iff h).2 (by decide)⟩

/-- A line feed in the name of the file breaks the line of a node in two. -/
theorem count_lineFeed_dump_of_file :
    let tree : Tree := node ⟨.construct .htmlContent, some { file := "a\nb" }, []⟩ []
    (tree.dump {} 0).succeeded = true ∧ (tree.listing 0).length = 1 ∧
      (tree.dump {} 0).chars.count '\n' = 2 := by
  decide

end Tree

end TemplateDump
