import TemplateDump.Proofs.Node.Reading
import TemplateDump.Proofs.Text.Borders
import TemplateDump.Proofs.Text.Field

/-!
# The fields of a line

The fields stand on the line escaped, each with the separator in front of it.  No escaped field
holds the separator, but the blank and the hyphen at the end of one make a separator with the blank
that follows, and so do the hyphen and the blank at the start of one with the blank in front.  So
lines with different fields can be the same (`Setup.writeNode_eq_of_hyphens`).

`Line.fields_determined_iff` says which lines tell their fields: the ones whose escaped fields are
legible.
-/

namespace TemplateDump

open Text

/-- What stands for a field on a line. -/
def Field.written (field : Field) : List Char :=
  escapeChars (field.getD "").toList

theorem Field.fitsField_written (field : Field) : FitsField field.written :=
  fitsField_escapeChars _

namespace Line

variable (line : Line)

/-- The line with other fields. -/
def withFields (fields : List Field) : Line :=
  { line with fields := fields }

/-- Only the written fields tell a line from one with other fields. -/
theorem chars_withFields_inj (fields fields' : List Field) :
    (line.withFields fields).chars = (line.withFields fields').chars ↔
      joinPieces (fields.map Field.written) = joinPieces (fields'.map Field.written) := by
  have hjoin : ∀ fs : List Field, fs.flatMap fieldChars = joinPieces (fs.map Field.written) := by
    intro fs
    rw [flatMap_fieldChars, List.map_map]
    rfl
  simp only [chars, bodyChars, withFields, hjoin, List.append_cancel_right_eq,
    List.append_cancel_left_eq]

/-- Pieces of the text that written fields give are themselves written fields. -/
theorem exists_fields_of_joinPieces {pieces : List (List Char)} {fields : List Field}
    (hpieces : ∀ piece ∈ pieces, SeparatorFree piece)
    (h : joinPieces pieces = joinPieces (fields.map Field.written)) :
    ∃ others : List Field, others.map Field.written = pieces := by
  have hkeep : ∀ c, c ∉ separator.toList → (∀ field : Field, c ∉ field.written) →
      ∀ piece ∈ pieces, c ∉ piece := by
    intro c hc hwritten piece hpiece hmem
    have hjoin := (mem_joinPieces hc).2 ⟨piece, hpiece, hmem⟩
    rw [h, mem_joinPieces hc] at hjoin
    obtain ⟨_, hfield, hmem'⟩ := hjoin
    obtain ⟨field, -, rfl⟩ := List.mem_map.1 hfield
    exact hwritten field hmem'
  have hfits : ∀ piece ∈ pieces, FitsField piece := fun piece hpiece =>
    { lineFeed_not_mem := hkeep '\n' (by decide)
        (fun field => field.fitsField_written.lineFeed_not_mem) piece hpiece
      return_not_mem := hkeep '\r' (by decide)
        (fun field => field.fitsField_written.return_not_mem) piece hpiece
      separator_not_infix := hpieces piece hpiece }
  refine ⟨pieces.map fun piece => some (String.ofList piece), ?_⟩
  rw [List.map_map]
  refine (List.map_congr_left fun piece hpiece => ?_).trans (List.map_id pieces)
  simp [Field.written, (hfits piece hpiece).escapeChars_eq]

/-- A line tells its fields, up to what escaping makes the same, if and only if the escaped fields
are legible. -/
theorem fields_determined_iff :
    (∀ others : List Field, others.length = line.fields.length →
      (line.withFields others).chars = line.chars →
        others.map Field.written = line.fields.map Field.written) ↔
      Legible (line.fields.map Field.written) := by
  have hfree : ∀ fields : List Field, ∀ piece ∈ fields.map Field.written, SeparatorFree piece := by
    intro fields piece hpiece
    obtain ⟨field, -, rfl⟩ := List.mem_map.1 hpiece
    exact field.fitsField_written.separator_not_infix
  rw [legible_iff (hfree line.fields)]
  constructor
  · rintro h ⟨pieces, hpieces, hlength, hjoin, hne⟩
    obtain ⟨others, rfl⟩ := exists_fields_of_joinPieces hpieces hjoin
    exact hne (h others (by simpa using hlength)
      ((line.chars_withFields_inj others line.fields).2 hjoin))
  · intro h others hlength hchars
    by_contra hne
    exact h ⟨others.map Field.written, hfree others, by simpa using hlength,
      (line.chars_withFields_inj others line.fields).1 hchars, hne⟩

end Line

/-- Two attributes with different texts around their values have the same line. -/
theorem Setup.writeNode_eq_of_hyphens :
    let first : Node := ⟨⟨.construct (.htmlAttribute ⟨"class", "a -", "b"⟩), none, []⟩, []⟩
    let second : Node := ⟨⟨.construct (.htmlAttribute ⟨"class", "a", "- b"⟩), none, []⟩, []⟩
    let fields : List Field := [some "a -", some "b"]
    let fields' : List Field := [some "a", some "- b"]
    ({} : Setup).registry.fields? first = .ok fields ∧
      ({} : Setup).registry.fields? second = .ok fields' ∧
      ({} : Setup).writeNode 0 first = .ofChars "HtmlAttribute - a - - b".toList ∧
      ({} : Setup).writeNode 0 second = .ofChars "HtmlAttribute - a - - b".toList ∧
      fields.map Field.written ≠ fields'.map Field.written :=
  ⟨rfl, rfl, by decide, by decide, by decide⟩

end TemplateDump
