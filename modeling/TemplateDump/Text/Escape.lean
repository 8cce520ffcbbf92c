import TemplateDump.Text.Replace

/-!
# Fields on one line

A field of a dump line may hold any text, so what would end the line or the field is written
differently: carriage returns are left out, a line feed becomes a backslash and an `n`, and the
separator of fields becomes a backslash and a hyphen. A backslash itself is kept as it is.

`unescape` reads such a field back; on text without a backslash it recovers all but the carriage
returns.
-/

namespace TemplateDump.Text

/-- What stands between the fields of a line. -/
def separator : String := " - "

theorem toList_separator : separator.toList = [' ', '-', ' '] := rfl

/-- What stands for the separator inside a field. -/
def escapedSeparator : List Char := ['\\', '-']

/-- What stands for a line feed inside a field. -/
def escapedLineFeed : List Char := ['\\', 'n']

/-! ## Writing -/

/-- Replaces the line feeds of a text and then the separators. -/
def markBreaks (text : List Char) : List Char :=
  replaceAll separator.toList escapedSeparator (replaceAll ['\n'] escapedLineFeed text)

/-- Makes a text fit for a field: first the carriage returns go, then the line feeds are replaced,
and last the separators, which the first step may have brought together. -/
def escapeChars (text : List Char) : List Char :=
  markBreaks (text.filter (· != '\r'))

/-- Makes a text fit for a field. -/
def escape (text : String) : String :=
  String.ofList (escapeChars text.toList)

@[simp] theorem toList_escape (text : String) : (escape text).toList = escapeChars text.toList :=
  String.toList_ofList

/-! ## Reading -/

/-- Reads a field from left to right: a backslash followed by `n` is a line feed, one followed by a
hyphen is the separator, and everything else stands for itself. -/
def unescapeChars : List Char → List Char
  | [] => []
  | '\\' :: 'n' :: rest => '\n' :: unescapeChars rest
  | '\\' :: '-' :: rest => separator.toList ++ unescapeChars rest
  | c :: rest => c :: unescapeChars rest

end TemplateDump.Text
