/-! # Vocabulary

The words and marks of the language. Each carries the version that introduced it and how settled it
is; versions are ordered by their major number first (`Since.compare_eq_eq_iff`,
`Since.compare_swap`).

* `Keyword.ofText?` looks up one of the five words that are no identifiers, by its spelling or an
  alias: `Keyword.ofText?_spelling`, `Keyword.ofText?_eq_some_iff`.
* `Punctuation.ofChar?` and `Punctuation.ofText?` look up one of the seven characters that are
  tokens by themselves: `Punctuation.ofChar?_eq_some_iff`, `Punctuation.ofText?_eq_some_iff`. -/

namespace Idl

/-! ### Versions -/

/-- The language version in which a word or mark first appeared. -/
structure Since where
  major : Nat
  minor : Nat
deriving DecidableEq, Repr

namespace Since

/-- A version is written with a dot. -/
def text (s : Since) : String := s.major.repr ++ "." ++ s.minor.repr

/-- The major number decides, then the minor one. -/
def compare (a b : Since) : Ordering :=
  (Ord.compare a.major b.major).then (Ord.compare a.minor b.minor)

theorem compare_eq_eq_iff (a b : Since) : a.compare b = .eq ↔ a = b := by
  cases a; cases b
  simp [compare, Ordering.then_eq_eq]

theorem compare_swap (a b : Since) : (a.compare b).swap = b.compare a := by
  simp [compare, Ordering.swap_then, Nat.compare_swap]

end Since

/-- How settled a word or mark of the language is. -/
inductive Stability where
  | stable
  | draft
  | deprecated
deriving DecidableEq, Repr

/-! ### Keywords -/

/-- The words with a meaning of their own. -/
inductive Keyword where
  | module
  | interface
  | readonly
  | writeonly
  | readwrite
deriving DecidableEq, Repr

namespace Keyword

/-- What a keyword is for. -/
inductive Category where
  | declaration
  | modifier
deriving DecidableEq, Repr

/-- All keywords, in the order of the table. -/
def all : List Keyword := [module, interface, readonly, writeonly, readwrite]

/-- The word as it is written. -/
def spelling : Keyword → String
  | module => "module"
  | interface => "interface"
  | readonly => "readonly"
  | writeonly => "writeonly"
  | readwrite => "readwrite"

/-- Other words accepted for a keyword; so far there are none. -/
def aliases (_ : Keyword) : List String := []

/-- Two keywords open a declaration, the others modify one. -/
def category : Keyword → Category
  | module | interface => .declaration
  | readonly | writeonly | readwrite => .modifier

/-- What a keyword does, in one sentence. -/
def description : Keyword → String
  | module => "Declares a named module containing interfaces."
  | interface => "Declares an interface with attributes and methods."
  | readonly => "Marks an attribute as readable only."
  | writeonly => "Marks an attribute as writable only."
  | readwrite => "Marks an attribute as readable and writable (the default)."

/-- All keywords came with the first version. -/
def since (_ : Keyword) : Since := ⟨0, 1⟩

/-- All keywords are settled. -/
def stability (_ : Keyword) : Stability := .stable

/-- **The keyword that a word spells**, if it spells one. -/
def ofText? (word : String) : Option Keyword :=
  all.find? fun k => word = k.spelling || word ∈ k.aliases

theorem mem_all (k : Keyword) : k ∈ all := by cases k <;> decide

theorem ofText?_spelling (k : Keyword) : ofText? k.spelling = some k := by
  cases k <;> decide

theorem ofText?_eq_some_iff {word : String} {k : Keyword} :
    ofText? word = some k ↔ word = k.spelling := by
  constructor
  · intro h
    have := List.find?_some h
    simpa [aliases] using this
  · rintro rfl
    exact ofText?_spelling k

end Keyword

/-! ### Punctuation -/

/-- The marks of the language. -/
inductive Punctuation where
  | openBrace
  | closeBrace
  | openParen
  | closeParen
  | comma
  | semicolon
  | atSign
deriving DecidableEq, Repr

namespace Punctuation

/-- What a mark is for. -/
inductive Category where
  | delimiter
  | separator
  | marker
deriving DecidableEq, Repr

/-- All marks, in the order of the table. -/
def all : List Punctuation :=
  [openBrace, closeBrace, openParen, closeParen, comma, semicolon, atSign]

/-- The character of a mark. -/
def char : Punctuation → Char
  | openBrace => '{'
  | closeBrace => '}'
  | openParen => '('
  | closeParen => ')'
  | comma => ','
  | semicolon => ';'
  | atSign => '@'

/-- The mark as a text of one character. -/
def spelling (p : Punctuation) : String := String.singleton p.char

/-- Braces and parentheses delimit, commas and semicolons separate, the at sign marks. -/
def category : Punctuation → Category
  | openBrace | closeBrace | openParen | closeParen => .delimiter
  | comma | semicolon => .separator
  | atSign => .marker

/-- All marks came with the first version. -/
def since (_ : Punctuation) : Since := ⟨0, 1⟩

/-- All marks are settled. -/
def stability (_ : Punctuation) : Stability := .stable

/-- **The mark that a character is**, if it is one. -/
def ofChar? (c : Char) : Option Punctuation :=
  all.find? fun p => c = p.char

/-- **The mark that a text spells**, if it spells one. -/
def ofText? (text : String) : Option Punctuation :=
  all.find? fun p => text = p.spelling

theorem mem_all (p : Punctuation) : p ∈ all := by cases p <;> decide

theorem ofChar?_char (p : Punctuation) : ofChar? p.char = some p := by
  cases p <;> decide

theorem ofChar?_eq_some_iff {c : Char} {p : Punctuation} : ofChar? c = some p ↔ c = p.char := by
  constructor
  · intro h
    simpa using List.find?_some h
  · rintro rfl
    exact ofChar?_char p

theorem ofText?_spelling (p : Punctuation) : ofText? p.spelling = some p := by
  cases p <;> decide

theorem ofText?_eq_some_iff {text : String} {p : Punctuation} :
    ofText? text = some p ↔ text = p.spelling := by
  constructor
  · intro h
    simpa using List.find?_some h
  · rintro rfl
    exact ofText?_spelling p

end Punctuation

end Idl
