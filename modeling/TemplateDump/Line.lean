import TemplateDump.Setup
import TemplateDump.Text.Escape

/-!
# Lines

A dump shows a node on one line: four spaces for each level above it, its short label, its source
span if it has one, its fields, and at the end the entries of its diagnostics. Span and fields have
the separator in front of them, and the fields are escaped.

`Setup.line?` says what the line of a node shows, and `Line.chars` how it is written. Only an
unknown extension node has no line.
-/

namespace TemplateDump

/-! ## What a line shows -/

/-- What the line of a node shows. -/
structure Line where
  depth : Nat
  label : String
  source : Option SourceSpan
  fields : List Field
  diagnostics : List Diagnostic

/-- Why a dump stops. -/
inductive DumpError where
  /-- An extension node for which no shape speaks and which is not trusted. -/
  | unknownNode (label : String) (moduleName : String)
deriving DecidableEq

/-- The wording of an error. -/
def DumpError.message : DumpError → String
  | .unknownNode label moduleName =>
    "Unknown node type: " ++ label ++ " (origin " ++ moduleName ++ ")"

/-- The fields of a node, in order: an extension node has those that its resolution gives. -/
def Registry.fields? (registry : Registry) (node : Node) : Except DumpError (List Field) :=
  match node.payload with
  | .construct c => .ok (c.fields.map some)
  | .extension e =>
    match registry.resolve (node.withPayload e) with
    | .rendered renderer => .ok (renderer.apply (node.withPayload e))
    | .basic => .ok []
    | .unknown => .error (.unknownNode e.label e.moduleName)

/-- The line of a node below `depth` others. Diagnostics are on it only if the options say so. -/
def Setup.line? (setup : Setup) (depth : Nat) (node : Node) : Except DumpError Line :=
  (setup.registry.fields? node).map fun fields =>
    { depth := depth
      label := node.payload.label
      source := node.source
      fields := fields
      diagnostics := if setup.options.includeDiagnostics then node.diagnostics else [] }

/-! ## How a line is written -/

/-- The indentation of a node below `depth` others. -/
def indentChars (depth : Nat) : List Char :=
  List.replicate (4 * depth) ' '

/-- Indentation does not end a line. -/
theorem lineFeed_not_mem_indentChars (depth : Nat) : '\n' ∉ indentChars depth := by
  intro h
  exact absurd (List.eq_of_mem_replicate h) (by decide)

/-- The indentation of a node below `depth` others. -/
def indent (depth : Nat) : String :=
  String.ofList (indentChars depth)

/-- The source span on a line. -/
def sourceChars : Option SourceSpan → List Char
  | none => []
  | some span => Text.separator.toList ++ span.chars

/-- A field on a line. -/
def fieldChars (field : Field) : List Char :=
  Text.separator.toList ++ Text.escapeChars (field.getD "").toList

/-- The entry of a diagnostic: its span, the label of its severity, its code, and the fingerprint
of its message, in braces. -/
def Diagnostic.entryChars (d : Diagnostic) : List Char :=
  '{' :: d.span.chars ++ [':', ' '] ++ d.severity.label.toList ++ ' ' :: d.id.codeChars ++
    [':', ' '] ++ d.digest.toList ++ ['}']

/-- The diagnostics on a line: nothing if there are none, and otherwise a bar and the entries with
a space between any two. -/
def diagnosticsChars (diagnostics : List Diagnostic) : List Char :=
  match diagnostics with
  | [] => []
  | _ => [' ', '|', ' '] ++ [' '].intercalate (diagnostics.map Diagnostic.entryChars)

/-- The line in front of its diagnostics. -/
def Line.bodyChars (line : Line) : List Char :=
  indentChars line.depth ++ shortLabelChars line.label.toList ++ sourceChars line.source ++
    line.fields.flatMap fieldChars

/-- The line. -/
def Line.chars (line : Line) : List Char :=
  line.bodyChars ++ diagnosticsChars line.diagnostics

end TemplateDump
