import TemplateDump.Proofs.Text.Escape

/-!
# Texts that fit in a field

A text fits in a field if it holds no line feed, no carriage return and no separator.  Escaping
makes every text fit and leaves as they are exactly those that fit already
(`escape_fixes_fitting`).

What escaping loses shows in what is read back.  Of a text without backslashes that is all but the
carriage returns, so two such texts are escaped alike if and only if they differ in carriage returns
only (`escape_loses_returns`).
-/

namespace TemplateDump.Text

/-! ## What fits -/

/-- A text that can stand in a field as it is. -/
structure FitsField (text : List Char) : Prop where
  lineFeed_not_mem : '\n' ∉ text
  return_not_mem : '\r' ∉ text
  separator_not_infix : ¬ separator.toList <:+: text

theorem fitsField_escapeChars (text : List Char) : FitsField (escapeChars text) where
  lineFeed_not_mem := lineFeed_not_mem_escapeChars text
  return_not_mem := return_not_mem_escapeChars text
  separator_not_infix := separator_not_infix_escapeChars text

theorem FitsField.escapeChars_eq {text : List Char} (h : FitsField text) :
    escapeChars text = text :=
  escapeChars_eq_self h.return_not_mem h.lineFeed_not_mem h.separator_not_infix

theorem fitsField_escape (text : String) : FitsField (escape text).toList := by
  rw [toList_escape]
  exact fitsField_escapeChars text.toList

theorem FitsField.escape_eq {text : String} (h : FitsField text.toList) : escape text = text := by
  rw [escape, h.escapeChars_eq, String.ofList_toList]

/-- **What escaping leaves as it is.**  An escaped text holds no line feed, no carriage return and
no separator.  The texts that hold none of these are the ones that escaping leaves as they are, so
it does nothing to what is escaped already, and the ones that come of escaping. -/
theorem escape_fixes_fitting (text : String) :
    FitsField (escape text).toList ∧
      (escape text = text ↔ FitsField text.toList) ∧
      escape (escape text) = escape text ∧
      ((∃ source, escape source = text) ↔ FitsField text.toList) := by
  have hfits : ∀ source, escape source = text → FitsField text.toList := by
    rintro source rfl
    exact fitsField_escape source
  refine ⟨fitsField_escape text, ⟨hfits text, FitsField.escape_eq⟩,
    (fitsField_escape text).escape_eq, fun ⟨source, h⟩ => hfits source h, fun h => ?_⟩
  exact ⟨text, h.escape_eq⟩

/-- A carriage return between the parts of a separator, and two separators that share a blank. -/
example : escape "a -\r - b" = "a\\-- b" := by decide

/-! ## What is lost -/

/-- A text without its carriage returns. -/
def withoutReturns (text : List Char) : List Char :=
  text.filter (· != '\r')

/-- Text without backslashes is read back from its field, but for the carriage returns. -/
theorem unescapeChars_escape {text : String} (h : '\\' ∉ text.toList) :
    unescapeChars (escape text).toList = withoutReturns text.toList := by
  have hkept : '\\' ∉ withoutReturns text.toList := fun hmem => h (List.mem_filter.1 hmem).1
  rw [toList_escape, escapeChars]
  exact unescapeChars_markBreaks hkept

/-- Carriage returns make no difference. -/
theorem escape_congr {first second : String}
    (h : withoutReturns first.toList = withoutReturns second.toList) :
    escape first = escape second := by
  have hchars : escapeChars first.toList = escapeChars second.toList := congrArg markBreaks h
  rw [escape, escape, hchars]

/-- **What escaping loses.**  A text without backslashes is read back from its field, but for the
carriage returns.  So two such texts are escaped alike if and only if they are the same without
their carriage returns. -/
theorem escape_loses_returns {first : String} (hfirst : '\\' ∉ first.toList) :
    unescapeChars (escape first).toList = withoutReturns first.toList ∧
      ∀ second : String, '\\' ∉ second.toList →
        (escape first = escape second ↔
          withoutReturns first.toList = withoutReturns second.toList) := by
  refine ⟨unescapeChars_escape hfirst, fun second hsecond => ⟨fun h => ?_, escape_congr⟩⟩
  calc
    withoutReturns first.toList = unescapeChars (escape first).toList :=
      (unescapeChars_escape hfirst).symm
    _ = unescapeChars (escape second).toList := by rw [h]
    _ = withoutReturns second.toList := unescapeChars_escape hsecond

/-- Carriage returns at the end of a line and inside a separator are lost, line feeds are not. -/
theorem escape_of_line_ends :
    unescapeChars (escape "a -\r - b\r\n").toList = "a - - b\n".toList ∧
      escape "a -\r - b\r\n" = escape "a - - b\n" ∧
      escape "a -\r - b\r\n" ≠ escape "a - - b" := by
  have hfirst : '\\' ∉ "a -\r - b\r\n".toList := by decide
  obtain ⟨hread, halike⟩ := escape_loses_returns hfirst
  refine ⟨hread.trans (by decide), (halike "a - - b\n" (by decide)).2 (by decide), ?_⟩
  exact mt (halike "a - - b" (by decide)).1 (by decide)

/-- With backslashes different texts can be escaped alike. -/
example : escape "\\n" = escape "\n" := by decide

end TemplateDump.Text
