import TemplateDump.Node.Construct

/-!
# Edits of constructs

Parts of a construct can be set or added after it was made. An edit that does not fit the construct
leaves it as it is.
-/

namespace TemplateDump

/-- A change to what a construct holds. -/
inductive ConstructEdit where
  | documentKind (text : String)
  | content (text : String)
  | addModifier (modifier : String)
  | addInterface (name : String)
  | baseType (name : String)
  | fieldName (name : String)
deriving DecidableEq

/-- The construct after a change. -/
def Construct.edit (construct : Construct) (change : ConstructEdit) : Construct :=
  match change, construct with
  | .documentKind text, .document _ => .document text
  | .content text, .namespaceDeclaration _ => .namespaceDeclaration text
  | .content text, .usingDirective _ => .usingDirective text
  | .content text, .token t => .token { t with content := text }
  | .addModifier modifier, .classDeclaration d =>
    .classDeclaration { d with modifiers := d.modifiers ++ [modifier] }
  | .addModifier modifier, .methodDeclaration d =>
    .methodDeclaration { d with modifiers := d.modifiers ++ [modifier] }
  | .addModifier modifier, .fieldDeclaration d =>
    .fieldDeclaration { d with modifiers := d.modifiers ++ [modifier] }
  | .addInterface name, .classDeclaration d =>
    .classDeclaration { d with interfaces := d.interfaces ++ [name] }
  | .baseType name, .classDeclaration d => .classDeclaration { d with baseType := name }
  | .fieldName name, .fieldDeclaration d => .fieldDeclaration { d with name := name }
  | _, _ => construct

end TemplateDump
