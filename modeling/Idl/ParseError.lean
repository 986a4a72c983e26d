import Idl.Token

/-! # Parse errors

A program is refused at a token that cannot come next, or at a declaration that repeats a name. An
error keeps what it is about; `expected`, `found`, `span` and `previous` read the parts of the
message off it. -/

namespace Idl

/-- What could have come instead of an unexpected token. -/
inductive Expected where
  | moduleKeyword
  | moduleName
  | openBrace
  | closeBrace
  | interfaceKeyword
  | interfaceOrClose
  | interfaceName
  | memberOrClose
  | typeName
  | memberName
  | openParenOrSemicolon
  | parameterName
  | closeParen
  | semicolon
  | annotationName
  | annotationValue
deriving DecidableEq, Repr

/-- An expectation as messages name it. -/
def Expected.text : Expected → String
  | moduleKeyword => "'module'"
  | moduleName => "module name"
  | openBrace => "'\x7b'"
  | closeBrace => "'\x7d'"
  | interfaceKeyword => "'interface'"
  | interfaceOrClose => "'interface' or '\x7d'"
  | interfaceName => "interface name"
  | memberOrClose => "member declaration or '\x7d'"
  | typeName => "type name"
  | memberName => "member name"
  | openParenOrSemicolon => "'(' or ';' after member name"
  | parameterName => "parameter name"
  | closeParen => "')'"
  | semicolon => "';'"
  | annotationName => "annotation name"
  | annotationValue => "annotation value (string, number or identifier)"

/-- The declarations whose names must differ within their scope. -/
inductive Declared where
  | module
  | interface
  | attribute
deriving DecidableEq, Repr

/-- A sort of declaration as messages name it. -/
def Declared.text : Declared → String
  | .module => "module"
  | .interface => "interface"
  | .attribute => "attribute"

/-- Why a list of tokens is no program. -/
inductive ParseError where
  /-- The token cannot come here. -/
  | unexpectedToken (expected : Expected) (token : Token)
  /-- The token follows a complete program and starts no module. -/
  | trailingInput (token : Token)
  /-- The token closes a block or the input right behind an annotation. -/
  | dangling (token : Token) (tag : Span)
  /-- A declaration repeats the name of an earlier one in its scope. -/
  | duplicateName (what : Declared) (name : String) (span first : Span)
  /-- A method has a visibility modifier. -/
  | visibilityOnMethod (name : String) (modifier : Span)
deriving DecidableEq, Repr

namespace ParseError

/-- What was expected. -/
def expected : ParseError → String
  | unexpectedToken expected _ => expected.text
  | trailingInput _ => "'module' declaration or end of input"
  | dangling _ _ => "a declaration after the annotation"
  | duplicateName what _ _ _ => "a unique " ++ what.text ++ " name"
  | visibilityOnMethod _ _ => "an attribute declaration after the visibility modifier"

/-- What was found instead. -/
def found : ParseError → String
  | unexpectedToken _ token | trailingInput token | dangling token _ => token.kind.text
  | duplicateName what name _ _ => what.text ++ " '" ++ name ++ "'"
  | visibilityOnMethod name _ => "method '" ++ name ++ "'"

/-- Where the error is. -/
def span : ParseError → Span
  | unexpectedToken _ token | trailingInput token | dangling token _ => token.span
  | duplicateName _ _ span _ => span
  | visibilityOnMethod _ modifier => modifier

/-- An earlier place that the error refers to: the first declaration of a repeated name, or the
annotation that dangles. -/
def previous : ParseError → Option Span
  | dangling _ tag => some tag
  | duplicateName _ _ _ first => some first
  | unexpectedToken _ _ | trailingInput _ | visibilityOnMethod _ _ => none

end ParseError

end Idl
