import TemplateDump.Diagnostic.Basic
import TemplateDump.Node.Extension

/-!
# What a node holds

A node holds a construct or an extension. Beside that it has a source span, if it stands for a
piece of source, and the diagnostics that were found at it.
-/

namespace TemplateDump

/-! ## Contents and annotations -/

/-- What a node holds: a construct of the language, or an extension. -/
inductive Payload (τ : Type) where
  | construct (construct : Construct)
  | extension (extension : Extension τ)
deriving DecidableEq

/-- Contents with a source span and diagnostics. -/
structure Annotated (α : Type) where
  payload : α
  source : Option SourceSpan := none
  diagnostics : List Diagnostic := []
deriving DecidableEq

/-- A node without its children. -/
abbrev Head := Annotated (Payload Token)

/-- Exchanges the contents and keeps span and diagnostics. -/
def Annotated.withPayload {α β : Type} (a : Annotated α) (payload : β) : Annotated β :=
  ⟨payload, a.source, a.diagnostics⟩

/-! ## Kinds and labels -/

namespace Payload

variable {τ υ : Type}

/-- The kind of a node with these contents. -/
def kind : Payload τ → Kind
  | construct c => c.kind
  | extension _ => .extension

/-- The label of a node with these contents: that of its kind, but an extension has its own. -/
def label : Payload τ → String
  | construct c => c.kind.label
  | extension e => e.label

/-- Whether the contents are an extension. -/
def isExtension : Payload τ → Bool
  | construct _ => false
  | extension _ => true

/-- The token that the contents are, if they are one. -/
def token? : Payload τ → Option Token
  | construct (.token t) => some t
  | _ => none

/-- Names the identifier token of a reference in another way. -/
def bindToken (f : τ → Option υ) : Payload τ → Payload υ
  | construct c => construct c
  | extension e => extension (e.bindToken f)

end Payload

end TemplateDump
