import TemplateDump.Diagnostic.Catalogue
import TemplateDump.Digest
import TemplateDump.Span
import TemplateDump.Text.Replace

/-!
# Diagnostics and their messages

A diagnostic is a number, a severity, the place it is about, and arguments for the format that
belongs to the number. The message is made from the format in passes: the pass for argument `i`
replaces the placeholders `i` of the text as it stands then, and a last pass writes a question mark
for each placeholder that is left. An argument that holds a placeholder is therefore open to the
passes after its own. `Format.fill` is the other reading, in which every place of the format gets
its argument as it is.
-/

namespace TemplateDump

/-! ## Arguments -/

/-- An argument as it is handed to a diagnostic. -/
inductive Argument where
  | text (content : String)
  | integer (value : Int)
  | size (value : Nat)
  /-- A text that ends before its first U+0000, or no text at all. -/
  | zeroTerminated (content : Option String)
deriving DecidableEq

/-- The text that a message shows for an argument. -/
def Argument.toText : Argument → String
  | .text content => content
  | .integer value => Text.decimal value
  | .size value => Text.decimalNat value
  | .zeroTerminated none => "(null)"
  | .zeroTerminated (some content) => String.ofList (content.toList.takeWhile (· != '\x00'))

/-! ## Diagnostics -/

/-- A diagnostic. Its arguments are kept as the texts that messages show. -/
structure Diagnostic where
  id : DiagnosticId
  severity : Severity
  span : SourceSpan := {}
  arguments : List String := []
deriving DecidableEq, Inhabited

/-- A diagnostic whose severity is the one its number stands for unless another is given. -/
def Diagnostic.ofArguments (id : DiagnosticId) (severity : Option Severity) (span : SourceSpan)
    (arguments : List Argument) : Diagnostic :=
  ⟨id, severity.getD id.severity, span, arguments.map Argument.toText⟩

/-! ## Messages -/

/-- One pass for each argument, the first of which has number `index`: its text takes the place of
the placeholders with its number. -/
def substitutePasses : Nat → List String → List Char → List Char
  | _, [], text => text
  | index, argument :: rest, text =>
    substitutePasses (index + 1) rest
      (Text.replaceAll (Text.placeholder index) argument.toList text)

/-- The text with a question mark for each placeholder. -/
def hidePlaceholders (text : List Char) : List Char :=
  Text.mapPlaceholders (fun _ => ['?']) text

/-- The characters of the message. -/
def Diagnostic.messageChars (d : Diagnostic) : List Char :=
  hidePlaceholders (substitutePasses 0 d.arguments d.id.format.chars)

/-- The message: the format with the arguments in it. -/
def Diagnostic.message (d : Diagnostic) : String :=
  String.ofList d.messageChars

@[simp] theorem Diagnostic.toList_message (d : Diagnostic) :
    d.message.toList = d.messageChars :=
  String.toList_ofList

/-- The fingerprint of the message. -/
def Diagnostic.digest (d : Diagnostic) : String :=
  fingerprint d.message

/-- What stands in the place of a piece when all places are filled at once: the argument with its
number as it is, or a question mark where there is no such argument. -/
def FormatPiece.fill (arguments : List String) : FormatPiece → List Char
  | .text content => content.toList
  | .argument index => (arguments[index]?.getD "?").toList

/-- A format with every place filled at once. -/
def Format.fill (format : Format) (arguments : List String) : List Char :=
  format.flatMap (FormatPiece.fill arguments)

end TemplateDump
