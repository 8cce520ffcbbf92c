import TemplateDump.Diagnostic.Severity
import TemplateDump.Text.Placeholder

/-!
# The catalogue of diagnostics

The format of a diagnostic is a sequence of fixed texts and of places for numbered arguments. The
catalogue gives a format to each number in use; all other numbers share one format.
-/

namespace TemplateDump

/-! ## Formats -/

/-- A piece of a format: fixed text, or the place of an argument. -/
inductive FormatPiece where
  | text (content : String)
  | argument (index : Nat)
deriving DecidableEq

/-- The format of a message. -/
abbrev Format := List FormatPiece

/-- The characters of a piece; the place of an argument is a placeholder. -/
def FormatPiece.chars : FormatPiece → List Char
  | .text content => content.toList
  | .argument index => Text.placeholder index

/-- A format as text, with placeholders for the arguments. -/
def Format.chars (format : Format) : List Char :=
  format.flatMap FormatPiece.chars

/-- A format as text, with placeholders for the arguments. -/
def Format.toText (format : Format) : String :=
  String.ofList format.chars

/-! ## The table -/

/-- The format of a number that is not in use. -/
def unknownFormat : Format := [.text "unknown diagnostic"]

/-- The formats by number: markup from 1001, directives from 2001, tag helpers and components from
3001, warnings from 4001 and notes from 5001. -/
def catalogue : List (UInt16 × Format) := [
  (1001, [.text "the code block is missing a closing '", .argument 0, .text "' character"]),
  (1002, [.text "the explicit expression is missing a closing ')' character"]),
  (1003, [.text "encountered end tag '", .argument 0, .text "' with no matching start tag"]),
  (1004, [.text "the '", .argument 0, .text "' element was not closed"]),
  (1005, [.text "unexpected '", .argument 0, .text "' after '@' character"]),
  (1006, [.text "end of file was reached before the end of the comment"]),
  (2001, [.text "the '", .argument 0, .text "' directive expects ", .argument 1]),
  (2002, [.text "the '", .argument 0, .text "' directive must appear at the start of the line"]),
  (2003, [.text "the '", .argument 0, .text "' directive may only occur once per document"]),
  (2004, [.text "invalid token '", .argument 0, .text "' for the '", .argument 1,
    .text "' directive"]),
  (2005, [.text "unexpected literal following the '", .argument 0, .text "' directive"]),
  (3001, [.text "attribute '", .argument 0, .text "' on tag helper element '", .argument 1,
    .text "' requires a value"]),
  (3002, [.text "found an end tag '</", .argument 0,
    .text ">' for tag helper that does not allow one"]),
  (3003, [.text "the component parameter '", .argument 0, .text "' is used two or more times"]),
  (3004, [.text "could not resolve component type '", .argument 0, .text "'"]),
  (3005, [.text "malformed route template '", .argument 0, .text "'"]),
  (4001, [.text "found markup element with unexpected name '", .argument 0, .text "'"]),
  (4002, [.text "attribute '", .argument 0, .text "' has an empty value"]),
  (4003, [.text "the '", .argument 0, .text "' directive is obsolete"]),
  (5001, [.text "previous occurrence of '", .argument 0, .text "' is here"]),
  (5002, [.text "did you mean '", .argument 0, .text "'?"])]

/-- The format of the messages with this number. -/
def DiagnosticId.format (id : DiagnosticId) : Format :=
  (catalogue.lookup id.number).getD unknownFormat

end TemplateDump
