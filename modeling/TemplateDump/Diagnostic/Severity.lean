import TemplateDump.Text.Decimal
import TemplateDump.Label

/-!
# Severities and the numbers of diagnostics

Each kind of diagnostic has a number of 16 bits, and the thousands of the number say how grave it
is by default: 1 to 3 are errors, 4 warnings and 5 notes; every other number is an error. The code
of a diagnostic is a letter for that default and the number in at least four digits.
-/

namespace TemplateDump

/-! ## Severities -/

/-- How grave a diagnostic is. -/
inductive Severity where
  | note
  | warning
  | error
  | fatal
deriving DecidableEq, Inhabited

/-- The label of a severity. -/
def Severity.label : Severity → String
  | .note => "Note"
  | .warning => "Warning"
  | .error => "Error"
  | .fatal => "Fatal"

/-- The severities in order. -/
def Severity.all : List Severity := [.note, .warning, .error, .fatal]

/-- The letter with which the codes of a severity start. -/
def Severity.letter : Severity → Char
  | .note => 'N'
  | .warning => 'W'
  | .error => 'E'
  | .fatal => 'E'

/-! ## Numbers and codes -/

/-- The number of a kind of diagnostic. Numbers that no kind has are allowed. -/
structure DiagnosticId where
  number : UInt16
deriving DecidableEq, Inhabited

/-- The severity that the number stands for. -/
def DiagnosticId.severity (id : DiagnosticId) : Severity :=
  match id.number.toNat / 1000 with
  | 4 => .warning
  | 5 => .note
  | _ => .error

/-- Whether the number stands for an error, fatal or not. -/
def DiagnosticId.isError (id : DiagnosticId) : Bool :=
  id.severity = .error || id.severity = .fatal

/-- Whether the number stands for a warning. -/
def DiagnosticId.isWarning (id : DiagnosticId) : Bool :=
  id.severity = .warning

/-- Whether the number stands for a note. -/
def DiagnosticId.isNote (id : DiagnosticId) : Bool :=
  id.severity = .note

/-- The characters of the code. -/
def DiagnosticId.codeChars (id : DiagnosticId) : List Char :=
  id.severity.letter :: Text.paddedDigits 4 id.number.toNat

/-- The code: the letter of the severity that the number stands for, then the number in at least
four digits. -/
def DiagnosticId.code (id : DiagnosticId) : String :=
  String.ofList id.codeChars

end TemplateDump
