import Idl.Draft
import Idl.Scan

/-! # Parsing

A list of tokens is parsed by reading it into the empty draft, a text by scanning it first. About a
text that is no program a message is told, a stable code, advice where there is any, and the places
to point at (`Diagnostic`). -/

namespace Idl

/-- Why a text is no program: it cannot be cut into tokens, or its tokens do not fit. -/
inductive SyntaxError where
  | lex (error : LexError)
  | parse (error : ParseError)
deriving DecidableEq, Repr

/-- **The program that a list of tokens spells.** -/
def parse (tokens : List Token) : Except ParseError (List Module) := Draft.empty.read tokens

/-- **The program that a text spells.** -/
def parseText (source : String) : Except SyntaxError (List Module) :=
  match Scan.ofText source with
  | .error error => .error (.lex error)
  | .ok scan => (parse scan.tokens).mapError .parse

/-- A text that can be scanned is parsed as its tokens are. -/
theorem parseText_of_ofText {source : String} {scan : Scan} (h : Scan.ofText source = .ok scan) :
    parseText source = (parse scan.tokens).mapError .parse := by
  rw [parseText, h]

/-- A text spells a program if its tokens do. -/
theorem parseText_eq_ok_iff {source : String} {program : List Module} :
    parseText source = .ok program ↔
      ∃ scan, Scan.ofText source = .ok scan ∧ parse scan.tokens = .ok program := by
  unfold parseText
  cases Scan.ofText source with
  | error error => simp
  | ok scan =>
    simp only [Except.ok.injEq, exists_eq_left']
    generalize parse scan.tokens = result
    constructor
    · intro h
      cases result <;> cases h
      rfl
    · rintro rfl
      rfl

/-! ### Diagnostics -/

/-- A place in a text, and what to say about it. -/
structure Label where
  text : String
  span : Span
deriving DecidableEq, Repr

/-- All that is told about an error. -/
structure Diagnostic where
  message : String
  code : String
  help : Option String
  labels : List Label
  span : Span
deriving DecidableEq, Repr

namespace LexFault

/-- A fault as messages name it. -/
def text : LexFault → String
  | unexpectedCharacter => "unexpected character"
  | unterminatedString => "unterminated string literal"
  | invalidEscape => "invalid escape sequence"
  | unterminatedComment => "unterminated block comment"
  | malformedNumber => "malformed number"

/-- The stable code of a fault. -/
def code : LexFault → String
  | unexpectedCharacter => "gidl::lex::unexpected_character"
  | unterminatedString => "gidl::lex::unterminated_string"
  | invalidEscape => "gidl::lex::invalid_escape"
  | unterminatedComment => "gidl::lex::unterminated_comment"
  | malformedNumber => "gidl::lex::malformed_number"

/-- How to mend a fault. -/
def help : LexFault → String
  | unexpectedCharacter =>
    "identifiers are ASCII letters, digits and '_'; punctuation is one of \x7b \x7d ( ) , ; @"
  | unterminatedString => "close the string with '\"' before the end of the line"
  | invalidEscape => "supported escapes are \\\" \\\\ \\n \\t \\r and \\0"
  | unterminatedComment => "close the block comment with '*/'"
  | malformedNumber => "a '-' sign must be followed by a digit"

end LexFault

namespace LexError

/-- The message names the fault and shows the offending text. -/
def message (e : LexError) : String := e.fault.text ++ " '" ++ e.text ++ "'"

/-- The diagnostic points at the offending text. -/
def diagnostic (e : LexError) : Diagnostic where
  message := e.message
  code := e.fault.code
  help := some e.fault.help
  labels := [⟨e.fault.text, e.span⟩]
  span := e.span

end LexError

namespace ParseError

/-- The sort of an error as messages name it. -/
def title : ParseError → String
  | unexpectedToken _ _ => "unexpected token"
  | trailingInput _ => "unexpected trailing input"
  | dangling _ _ => "dangling annotation"
  | duplicateName what _ _ _ => "duplicate " ++ what.text ++ " name"
  | visibilityOnMethod _ _ => "visibility modifier on method"

/-- The stable code of an error. -/
def code : ParseError → String
  | unexpectedToken _ _ => "gidl::parse::unexpected_token"
  | trailingInput _ => "gidl::parse::trailing_input"
  | dangling _ _ => "gidl::parse::dangling_annotation"
  | duplicateName what _ _ _ => "gidl::parse::duplicate_" ++ what.text
  | visibilityOnMethod _ _ => "gidl::parse::visibility_on_method"

/-- How to mend an error, where there is advice. -/
def help : ParseError → Option String
  | unexpectedToken _ _ => none
  | trailingInput _ => some "only 'module' declarations may appear at the top level"
  | dangling _ _ => some "annotations must be followed by the declaration they decorate"
  | duplicateName .module _ _ _ => some "module names must be unique across the whole input"
  | duplicateName .interface _ _ _ => some "interface names must be unique within their module"
  | duplicateName .attribute _ _ _ => some "attribute names must be unique within their interface"
  | visibilityOnMethod _ _ =>
    some "'readonly', 'writeonly' and 'readwrite' only apply to attributes"

/-- The message names the error, what was expected and what was found. -/
def message (e : ParseError) : String :=
  e.title ++ ": expected " ++ e.expected ++ ", found " ++ e.found

/-- The places to point at: the error first, then the earlier place it refers to. -/
def labels (e : ParseError) : List Label :=
  match e with
  | duplicateName _ _ span first =>
    [⟨e.found ++ " redeclared here", span⟩, ⟨"first declared here", first⟩]
  | e =>
    ⟨"expected " ++ e.expected, e.span⟩ ::
      (e.previous.map fun span => ⟨"annotation declared here", span⟩).toList

/-- The diagnostic of a parse error. -/
def diagnostic (e : ParseError) : Diagnostic where
  message := e.message
  code := e.code
  help := e.help
  labels := e.labels
  span := e.span

end ParseError

/-- The diagnostic of an error of either sort. -/
def SyntaxError.diagnostic : SyntaxError → Diagnostic
  | lex error => error.diagnostic
  | parse error => error.diagnostic

end Idl
