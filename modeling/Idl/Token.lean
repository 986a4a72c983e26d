import Idl.Span
import Idl.Text.Quoted
import Idl.Vocabulary

/-! # Tokens

A token is a kind with the span it was read from. The kind holds all that the grammar looks at: a
keyword, a mark, or the name, value or spelling that stands in the text. `TokenKind.text` describes
a kind in messages. -/

namespace Idl

/-- What a token is, apart from where it stands. -/
inductive TokenKind where
  | keyword (word : Keyword)
  | punctuation (mark : Punctuation)
  | identifier (name : String)
  /-- A quoted text, by the value it stands for. -/
  | string (value : String)
  /-- A number, by its spelling. -/
  | number (spelling : String)
  | endOfInput
deriving DecidableEq, Repr

/-- A kind as messages name it. -/
def TokenKind.text : TokenKind → String
  | keyword word => "keyword '" ++ word.spelling ++ "'"
  | punctuation mark => "'" ++ mark.spelling ++ "'"
  | identifier name => "identifier '" ++ name ++ "'"
  | string value => "string literal " ++ Text.shown value
  | number spelling => "number '" ++ spelling ++ "'"
  | endOfInput => "end of input"

/-- A token of a text. -/
structure Token where
  kind : TokenKind
  span : Span
deriving DecidableEq, Repr

namespace Token

/-- Whether a token marks the end of its list. -/
def isEnd (t : Token) : Bool := t.kind = .endOfInput

/-- The end that is read where a list stops without one. -/
def implicitEnd : Token := ⟨.endOfInput, .point .start⟩

/-- Whether a token is a given mark. -/
def isMark (t : Token) (mark : Punctuation) : Bool := t.kind = .punctuation mark

/-- Whether a token is a given keyword. -/
def isWord (t : Token) (word : Keyword) : Bool := t.kind = .keyword word

/-- The name that a token is, if it is an identifier. -/
def name? (t : Token) : Option String :=
  match t.kind with
  | .identifier name => some name
  | _ => none

@[simp] theorem isEnd_iff {t : Token} : t.isEnd = true ↔ t.kind = .endOfInput := by simp [isEnd]

@[simp] theorem isMark_iff {t : Token} {mark : Punctuation} :
    t.isMark mark = true ↔ t.kind = .punctuation mark := by simp [isMark]

@[simp] theorem isWord_iff {t : Token} {word : Keyword} :
    t.isWord word = true ↔ t.kind = .keyword word := by simp [isWord]

theorem name?_eq_some_iff {t : Token} {name : String} :
    t.name? = some name ↔ t.kind = .identifier name := by
  unfold name?; split <;> simp_all

end Token

end Idl
