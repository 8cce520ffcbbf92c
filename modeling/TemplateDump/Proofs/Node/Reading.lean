import TemplateDump.Output
import TemplateDump.Proofs.Node.Shown
import TemplateDump.Proofs.Text.Escape
import Mathlib.Data.List.Infix

/-!
# Reading the line of a node

With the components registered and without diagnostics, the line of a node is the indentation, the
short label of its class, and then pieces with the separator in front of each: the source span, if
there is one, and the escaped fields (`writeNode_plain`).  A readable node is one whose pieces can
be told apart and turned back, and of such a node the line says its depth and all that is to be
shown of it (`lineChars_inj`).
-/

namespace TemplateDump

open Text

/-! ## The line -/

/-- The setup in which the components are registered and nothing else, and diagnostics are not
shown. -/
def Setup.plain : Setup :=
  ⟨.ofComponents, ⟨false⟩⟩

namespace Shown

/-- What stands behind the short label, in order. -/
def pieces (s : Shown) : List (List Char) :=
  (s.source.map SourceSpan.chars).toList ++ s.fields.map (escapeChars ·.toList)

/-- The line, below `depth` other nodes. -/
def lineChars (depth : Nat) (s : Shown) : List Char :=
  indentChars depth ++ (s.nodeClass.shortName ++ joinPieces s.pieces)

end Shown

theorem flatMap_fieldChars (fields : List Field) :
    fields.flatMap fieldChars =
      joinPieces ((fields.map (·.getD "")).map (escapeChars ·.toList)) := by
  rw [joinPieces, List.map_map, List.flatMap_map]
  rfl

theorem sourceChars_eq_joinPieces (source : Option SourceSpan) :
    sourceChars source =
      joinPieces ((source.map SourceSpan.shown).map SourceSpan.chars).toList := by
  cases source with
  | none => rfl
  | some span => simp [sourceChars, joinPieces]

/-- A piece is the span or one of the fields. -/
theorem mem_pieces {node : Head} {piece : List Char} (h : piece ∈ node.shown.pieces) :
    (∃ span ∈ node.source, piece = span.chars) ∨
      ∃ field ∈ node.payload.shownFields, piece = escapeChars field.toList := by
  rcases List.mem_append.1 h with hsource | hfield
  · obtain ⟨shown, hshown, rfl⟩ := Option.map_eq_some_iff.1 (Option.mem_toList.1 hsource)
    obtain ⟨span, hspan, rfl⟩ := Option.map_eq_some_iff.1 hshown
    exact .inl ⟨span, hspan, span.chars_shown⟩
  · obtain ⟨field, hmem, rfl⟩ := List.mem_map.1 hfield
    exact .inr ⟨field, hmem, rfl⟩

/-- The line of a node of a standard class. -/
theorem Setup.writeNode_plain {node : Node} (h : node.payload.nodeClass.isStandard = true)
    (depth : Nat) : plain.writeNode depth node = .ofChars (node.shown.lineChars depth) := by
  obtain ⟨fields, hok, hfields⟩ := Registry.fields?_ofComponents h
  have hline : plain.line? depth node =
      .ok ⟨depth, node.payload.label, node.source, fields, []⟩ := by
    rw [line?, show plain.registry = .ofComponents from rfl, hok]
    rfl
  rw [writeNode, hline]
  simp only [Line.chars, Line.bodyChars, diagnosticsChars, List.append_nil, Shown.lineChars,
    Shown.pieces, Annotated.shown, NodeClass.shortName, Payload.label_nodeClass,
    flatMap_fieldChars, hfields, sourceChars_eq_joinPieces, List.append_assoc, joinPieces,
    List.flatMap_append]

/-! ## Readable nodes -/

/-- A field that is turned back from what it is escaped to, and is a piece then. -/
structure Text.IsReadable (field : List Char) : Prop where
  no_backslash : '\\' ∉ field
  no_return : '\r' ∉ field
  not_suffix : ¬ [' ', '-'] <:+ field

/-- A node of a standard class whose fields are readable and whose span, as it is written, holds no
line feed and no separator. -/
structure Annotated.IsReadable (node : Head) : Prop where
  isStandard : node.payload.nodeClass.isStandard = true
  fields : ∀ field ∈ node.payload.shownFields, Text.IsReadable field.toList
  source : ∀ span ∈ node.source, '\n' ∉ span.chars ∧ ¬ separator.toList <:+: span.chars

instance (field : List Char) : Decidable (Text.IsReadable field) :=
  decidable_of_iff ('\\' ∉ field ∧ '\r' ∉ field ∧ ¬ [' ', '-'] <:+ field)
    ⟨fun ⟨h, h', h''⟩ => ⟨h, h', h''⟩, fun ⟨h, h', h''⟩ => ⟨h, h', h''⟩⟩

instance (node : Head) : Decidable node.IsReadable :=
  decidable_of_iff (node.payload.nodeClass.isStandard = true ∧
    (∀ field ∈ node.payload.shownFields, Text.IsReadable field.toList) ∧
    ∀ span ∈ node.source, '\n' ∉ span.chars ∧ ¬ separator.toList <:+: span.chars)
    ⟨fun ⟨h, h', h''⟩ => ⟨h, h', h''⟩, fun ⟨h, h', h''⟩ => ⟨h, h', h''⟩⟩

/-- Readable fields are turned back from what they are escaped to. -/
theorem map_unescape {fields : List String} (h : ∀ field ∈ fields, Text.IsReadable field.toList) :
    (fields.map (escapeChars ·.toList)).map (fun l => String.ofList (unescapeChars l)) =
      fields := by
  rw [List.map_map]
  refine (List.map_congr_left fun field hfield => ?_).trans (List.map_id fields)
  have hreadable := h field hfield
  rw [Function.comp_apply, escapeChars_eq_markBreaks hreadable.no_return,
    unescapeChars_markBreaks hreadable.no_backslash, String.ofList_toList, id_eq]

namespace Annotated.IsReadable

variable {node : Head}

theorem isPiece (h : node.IsReadable) : ∀ piece ∈ node.shown.pieces, IsPiece piece := by
  intro piece hpiece
  rcases mem_pieces hpiece with ⟨span, hspan, rfl⟩ | ⟨field, hfield, rfl⟩
  · refine ⟨(h.source span hspan).2, ?_⟩
    rintro ⟨front, hfront⟩
    have hlast : span.chars.getLast? = some '-' := by
      rw [← hfront, List.getLast?_append]
      rfl
    rw [SourceSpan.getLast?_chars] at hlast
    exact absurd hlast (by decide)
  · have hreadable := h.fields field hfield
    exact isPiece_escapeChars hreadable.no_return hreadable.not_suffix

theorem lineFeed_not_mem_lineChars (h : node.IsReadable) (depth : Nat) :
    '\n' ∉ node.shown.lineChars depth := by
  have hpieces : ∀ piece ∈ node.shown.pieces, '\n' ∉ piece := by
    intro piece hpiece
    rcases mem_pieces hpiece with ⟨span, hspan, rfl⟩ | ⟨field, -, rfl⟩
    · exact (h.source span hspan).1
    · exact lineFeed_not_mem_escapeChars _
  intro hmem
  rw [Shown.lineChars, List.mem_append, List.mem_append] at hmem
  rcases hmem with hmem | hmem | hmem
  · exact lineFeed_not_mem_indentChars depth hmem
  · exact (NodeClass.shortName_isWord h.isStandard).2.2 hmem
  · obtain ⟨piece, hpiece, hin⟩ := List.mem_flatMap.1 hmem
    rcases List.mem_append.1 hin with hseparator | hin
    · exact absurd hseparator (by decide)
    · exact hpieces piece hpiece hin

end Annotated.IsReadable

/-! ## Reading -/

/-- Indentation and label are found again in front of the pieces. -/
theorem indent_and_name_inj {d e : Nat} {first second : NodeClass} {r r' : List (List Char)}
    (hfirst : first.isStandard = true) (hsecond : second.isStandard = true)
    (h : indentChars d ++ (first.shortName ++ joinPieces r) =
      indentChars e ++ (second.shortName ++ joinPieces r')) :
    d = e ∧ first = second ∧ joinPieces r = joinPieces r' := by
  have hblank : ∀ n : Nat, ∀ c ∈ indentChars n, (c == ' ') = true := by
    intro n c hc
    exact beq_iff_eq.2 (List.eq_of_mem_replicate hc)
  have hword : ∀ {nodeClass : NodeClass}, nodeClass.isStandard = true →
      ∀ c ∈ nodeClass.shortName, (c != ' ') = true := by
    intro nodeClass hstandard c hc
    exact bne_iff_ne.2 fun e => (NodeClass.shortName_isWord hstandard).2.1 (e ▸ hc)
  have hstart : ∀ {nodeClass : NodeClass} (l : List Char), nodeClass.isStandard = true →
      ∀ c ∈ (nodeClass.shortName ++ l).head?, (c == ' ') = false := by
    intro nodeClass l hstandard c hc
    exact beq_eq_false_iff_ne.2 (NodeClass.ne_blank_of_mem_head?_append hstandard hc)
  have hborder : ∀ pieces : List (List Char),
      ∀ c ∈ (joinPieces pieces).head?, (c != ' ') = false := by
    intro pieces c hc
    rw [eq_blank_of_mem_head?_joinPieces hc]
    rfl
  obtain ⟨hindent, hrest⟩ := append_inj_of_border (hblank d) (hblank e) (hstart _ hfirst)
    (hstart _ hsecond) h
  obtain ⟨hname, hpieces⟩ := append_inj_of_border (hword hfirst) (hword hsecond) (hborder r)
    (hborder r') hrest
  refine ⟨?_, NodeClass.shortName_inj hfirst hsecond hname, hpieces⟩
  have hlength := congrArg List.length hindent
  simp only [indentChars, List.length_replicate] at hlength
  omega

/-- The line of a readable node says its depth and all that is shown of it. -/
theorem lineChars_inj {a b : Head} {d e : Nat} (ha : a.IsReadable) (hb : b.IsReadable)
    (h : a.shown.lineChars d = b.shown.lineChars e) : d = e ∧ a.shown = b.shown := by
  obtain ⟨hdepth, hclass, hjoin⟩ := indent_and_name_inj ha.isStandard hb.isStandard h
  have hpieces := joinPieces_inj ha.isPiece hb.isPiece hjoin
  -- Nodes of one class have equally many fields, so the span is in the same place or in neither.
  have hlength : (a.payload.shownFields.map (escapeChars ·.toList)).length =
      (b.payload.shownFields.map (escapeChars ·.toList)).length := by
    rw [List.length_map, List.length_map, Payload.length_shownFields, Payload.length_shownFields]
    exact congrArg NodeClass.fieldCount hclass
  obtain ⟨hsource, hfields⟩ := List.append_inj' hpieces hlength
  have hspan : a.shown.source = b.shown.source := SourceSpan.map_shown_inj hsource
  have htexts : a.shown.fields = b.shown.fields := by
    show a.payload.shownFields = b.payload.shownFields
    rw [← map_unescape ha.fields, ← map_unescape hb.fields]
    exact congrArg _ hfields
  refine ⟨hdepth, ?_⟩
  rw [Annotated.shown, Annotated.shown, Shown.mk.injEq]
  exact ⟨hclass, hspan, htexts⟩

end TemplateDump
