import TemplateDump.Label

/-!
# Kinds of nodes

Every node of an intermediate tree is of one of twenty-two kinds. Twenty-one of them belong to the
template language itself; the nodes of the last, `extension`, are defined by feature packages and
carry labels of their own. The smaller enumerations here are parts of the contents of nodes.
-/

namespace TemplateDump

/-! ## Kinds -/

/-- The kind of a node. -/
inductive Kind where
  | document
  | namespaceDeclaration
  | usingDirective
  | classDeclaration
  | methodDeclaration
  | fieldDeclaration
  | directive
  | directiveToken
  | malformedDirective
  | token
  | htmlContent
  | htmlAttribute
  | htmlAttributeValue
  | csharpExpression
  | csharpCode
  | csharpExpressionAttributeValue
  | csharpCodeAttributeValue
  | tagHelper
  | tagHelperBody
  | tagHelperProperty
  | tagHelperHtmlAttribute
  | extension
deriving DecidableEq, Inhabited

/-- The label of a kind. -/
def Kind.label : Kind → String
  | .document => "DocumentIntermediateNode"
  | .namespaceDeclaration => "NamespaceDeclarationIntermediateNode"
  | .usingDirective => "UsingDirectiveIntermediateNode"
  | .classDeclaration => "ClassDeclarationIntermediateNode"
  | .methodDeclaration => "MethodDeclarationIntermediateNode"
  | .fieldDeclaration => "FieldIntermediateNode"
  | .directive => "DirectiveIntermediateNode"
  | .directiveToken => "DirectiveTokenIntermediateNode"
  | .malformedDirective => "MalformedDirectiveIntermediateNode"
  | .token => "IntermediateToken"
  | .htmlContent => "HtmlContentIntermediateNode"
  | .htmlAttribute => "HtmlAttributeIntermediateNode"
  | .htmlAttributeValue => "HtmlAttributeValueIntermediateNode"
  | .csharpExpression => "CSharpExpressionIntermediateNode"
  | .csharpCode => "CSharpCodeIntermediateNode"
  | .csharpExpressionAttributeValue => "CSharpExpressionAttributeValueIntermediateNode"
  | .csharpCodeAttributeValue => "CSharpCodeAttributeValueIntermediateNode"
  | .tagHelper => "TagHelperIntermediateNode"
  | .tagHelperBody => "TagHelperBodyIntermediateNode"
  | .tagHelperProperty => "TagHelperPropertyIntermediateNode"
  | .tagHelperHtmlAttribute => "TagHelperHtmlAttributeIntermediateNode"
  | .extension => "ExtensionIntermediateNode"

/-- The kinds in order. -/
def Kind.all : List Kind :=
  [.document, .namespaceDeclaration, .usingDirective, .classDeclaration, .methodDeclaration,
    .fieldDeclaration, .directive, .directiveToken, .malformedDirective, .token, .htmlContent,
    .htmlAttribute, .htmlAttributeValue, .csharpExpression, .csharpCode,
    .csharpExpressionAttributeValue, .csharpCodeAttributeValue, .tagHelper, .tagHelperBody,
    .tagHelperProperty, .tagHelperHtmlAttribute, .extension]

/-! ## Enumerations inside nodes -/

/-- The language of a token. -/
inductive TokenKind where
  | unknown
  | csharp
  | html
deriving DecidableEq, Inhabited

/-- The label of a token's language. -/
def TokenKind.label : TokenKind → String
  | .unknown => "Unknown"
  | .csharp => "CSharp"
  | .html => "Html"

/-- The languages of tokens in order. -/
def TokenKind.all : List TokenKind := [.unknown, .csharp, .html]

/-- How the tags of an element are written. -/
inductive TagMode where
  | startTagAndEndTag
  | selfClosing
  | startTagOnly
deriving DecidableEq, Inhabited

/-- The label of a way to write tags. -/
def TagMode.label : TagMode → String
  | .startTagAndEndTag => "StartTagAndEndTag"
  | .selfClosing => "SelfClosing"
  | .startTagOnly => "StartTagOnly"

/-- The ways to write tags in order. -/
def TagMode.all : List TagMode := [.startTagAndEndTag, .selfClosing, .startTagOnly]

/-- How the value of an attribute is quoted. -/
inductive QuoteStyle where
  | doubleQuotes
  | singleQuotes
  | noQuotes
  | minimized
deriving DecidableEq, Inhabited

/-- The label of a way to quote. -/
def QuoteStyle.label : QuoteStyle → String
  | .doubleQuotes => "DoubleQuotes"
  | .singleQuotes => "SingleQuotes"
  | .noQuotes => "NoQuotes"
  | .minimized => "Minimized"

/-- The ways to quote in order. -/
def QuoteStyle.all : List QuoteStyle := [.doubleQuotes, .singleQuotes, .noQuotes, .minimized]

end TemplateDump
