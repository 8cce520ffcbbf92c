import TemplateDump.Node.Kind

/-!
# Constructs of the template language

A construct is what a node of one of the twenty-one kinds of the template language holds. Its
fields, in order, are what a dump shows of it; not all that a construct holds is shown.
-/

namespace TemplateDump

/-! ## Parts of constructs -/

/-- A token: a piece of source text and the language it is in. -/
structure Token where
  kind : TokenKind
  content : String
deriving DecidableEq, Inhabited

/-- A class declaration. -/
structure ClassDeclaration where
  modifiers : List String
  name : String
  baseType : String
  interfaces : List String
deriving DecidableEq, Inhabited

/-- A method declaration. -/
structure MethodDeclaration where
  modifiers : List String
  returnType : String
  name : String
deriving DecidableEq, Inhabited

/-- A field declaration. -/
structure FieldDeclaration where
  modifiers : List String
  fieldType : String
  name : String
deriving DecidableEq, Inhabited

/-- An attribute of an element, with the text before its value and the text behind it. -/
structure HtmlAttribute where
  name : String
  opening : String
  closing : String
deriving DecidableEq, Inhabited

/-- The property of a tag helper that an attribute is bound to. -/
structure BoundAttribute where
  name : String := ""
  typeName : String := ""
  displayName : String := ""
deriving DecidableEq, Inhabited

/-! ## Constructs -/

/-- What a node of a kind of the template language holds. -/
inductive Construct where
  | document (documentKind : String)
  | namespaceDeclaration (content : String)
  | usingDirective (content : String)
  | classDeclaration (declaration : ClassDeclaration)
  | methodDeclaration (declaration : MethodDeclaration)
  | fieldDeclaration (declaration : FieldDeclaration)
  | directive (name : String)
  | directiveToken (content : String)
  | malformedDirective (name : String)
  | token (token : Token)
  | htmlContent
  | htmlAttribute (written : HtmlAttribute)
  | htmlAttributeValue (opening : String)
  | csharpExpression
  | csharpCode
  | csharpExpressionAttributeValue (opening : String)
  | csharpCodeAttributeValue (opening : String)
  | tagHelper (tagName : String) (mode : TagMode)
  | tagHelperBody
  | tagHelperProperty (attributeName : String) (bound : BoundAttribute) (style : QuoteStyle)
  | tagHelperHtmlAttribute (attributeName : String) (style : QuoteStyle)
deriving DecidableEq, Inhabited

namespace Construct

/-- The kind of a node that holds the construct. -/
def kind : Construct → Kind
  | document _ => .document
  | namespaceDeclaration _ => .namespaceDeclaration
  | usingDirective _ => .usingDirective
  | classDeclaration _ => .classDeclaration
  | methodDeclaration _ => .methodDeclaration
  | fieldDeclaration _ => .fieldDeclaration
  | directive _ => .directive
  | directiveToken _ => .directiveToken
  | malformedDirective _ => .malformedDirective
  | token _ => .token
  | htmlContent => .htmlContent
  | htmlAttribute _ => .htmlAttribute
  | htmlAttributeValue _ => .htmlAttributeValue
  | csharpExpression => .csharpExpression
  | csharpCode => .csharpCode
  | csharpExpressionAttributeValue _ => .csharpExpressionAttributeValue
  | csharpCodeAttributeValue _ => .csharpCodeAttributeValue
  | tagHelper _ _ => .tagHelper
  | tagHelperBody => .tagHelperBody
  | tagHelperProperty _ _ _ => .tagHelperProperty
  | tagHelperHtmlAttribute _ _ => .tagHelperHtmlAttribute

/-- A list of modifiers as one field. -/
def modifierField (modifiers : List String) : String :=
  " ".intercalate modifiers

/-- A list of interfaces as one field. -/
def interfaceField (interfaces : List String) : String :=
  ", ".intercalate interfaces

/-- The field that names how an element's tags are written. -/
def tagModeField (mode : TagMode) : String :=
  "TagMode." ++ mode.label

/-- The field that names how an attribute's value is quoted. -/
def quoteStyleField (style : QuoteStyle) : String :=
  "HtmlAttributeValueStyle." ++ style.label

/-- What a dump shows of a construct, in order. -/
def fields : Construct → List String
  | document _ => []
  | namespaceDeclaration content => [content]
  | usingDirective content => [content]
  | classDeclaration d =>
    [modifierField d.modifiers, d.name, d.baseType, interfaceField d.interfaces]
  | methodDeclaration d => [modifierField d.modifiers, d.returnType, d.name]
  | fieldDeclaration d => [modifierField d.modifiers, d.fieldType, d.name]
  | directive name => [name]
  | directiveToken content => [content]
  | malformedDirective name => [name]
  | token t => [t.kind.label, t.content]
  | htmlContent => []
  | htmlAttribute a => [a.opening, a.closing]
  | htmlAttributeValue opening => [opening]
  | csharpExpression => []
  | csharpCode => []
  | csharpExpressionAttributeValue opening => [opening]
  | csharpCodeAttributeValue opening => [opening]
  | tagHelper tagName mode => [tagName, tagModeField mode]
  | tagHelperBody => []
  | tagHelperProperty attributeName bound style =>
    [attributeName, bound.displayName, quoteStyleField style]
  | tagHelperHtmlAttribute attributeName style => [attributeName, quoteStyleField style]

end Construct

end TemplateDump
