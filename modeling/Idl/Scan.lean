import Idl.Lexeme

/-! # Scans

The scan of a text gives every token and every comment its span. The lexemes of the cut stand one
behind the other from the start of the text, so a lexeme begins where the ones before it end
(`placed`). The token list closes with an end token behind the last character.

* `placed_append`: placing can be cut anywhere.
* `Scan.ofText`: the tokens and comments of a text, or the error at the place where its cut is
  stuck. -/

namespace Idl

/-- A text that cannot be cut: what is wrong, the offending text and where it stands. -/
structure LexError where
  fault : LexFault
  text : String
  span : Span
deriving DecidableEq, Repr

namespace Lexeme

/-- The characters of some lexemes. -/
def texts (lexemes : List Lexeme) : List Char := lexemes.flatMap Lexeme.text

/-- Lexemes with their spans, from a position on, behind some others, the last of which comes
first. -/
def placedOnto (done : List (LexemeKind × Span)) (p : Position) :
    List Lexeme → List (LexemeKind × Span)
  | [] => done.reverse
  | l :: later =>
    placedOnto ((l.kind, .between p (p.after l.text)) :: done) (p.after l.text) later

/-- Lexemes with their spans, from a position on. -/
def placed (p : Position) (lexemes : List Lexeme) : List (LexemeKind × Span) :=
  placedOnto [] p lexemes

@[simp] theorem texts_nil : texts [] = [] := rfl

@[simp] theorem texts_cons (l : Lexeme) (later : List Lexeme) :
    texts (l :: later) = l.text ++ texts later := rfl

@[simp] theorem texts_append (xs ys : List Lexeme) : texts (xs ++ ys) = texts xs ++ texts ys := by
  simp [texts]

theorem placedOnto_eq (done : List (LexemeKind × Span)) (p : Position) (lexemes : List Lexeme) :
    placedOnto done p lexemes = done.reverse ++ placed p lexemes := by
  induction lexemes generalizing done p with
  | nil => simp [placed, placedOnto]
  | cons l later ih =>
    rw [placed, placedOnto, placedOnto, ih, ih [_]]
    simp

@[simp] theorem placed_nil (p : Position) : placed p [] = [] := rfl

@[simp] theorem placed_cons (p : Position) (l : Lexeme) (later : List Lexeme) :
    placed p (l :: later) =
      (l.kind, .between p (p.after l.text)) :: placed (p.after l.text) later := by
  rw [placed, placedOnto, placedOnto_eq]
  rfl

/-- Placing can be cut anywhere: later lexemes start behind the earlier ones. -/
theorem placed_append (p : Position) (xs ys : List Lexeme) :
    placed p (xs ++ ys) = placed p xs ++ placed (p.after (texts xs)) ys := by
  induction xs generalizing p with
  | nil => simp
  | cons l xs ih => simp [ih]

end Lexeme

/-- The error of a cut that is stuck at a position. -/
def Stuck.error (s : Stuck) (p : Position) : LexError :=
  let start := p.after s.skipped
  ⟨s.fault, String.ofList s.text, .between start (start.after s.text)⟩

/-- What a text holds: its tokens, closed by an end token, and where its comments are. -/
structure Scan where
  tokens : List Token
  comments : List Span
deriving DecidableEq, Repr

namespace Scan

/-- The token of a placed lexeme, if it is one. -/
def token? : LexemeKind × Span → Option Token
  | (.token kind, span) => some ⟨kind, span⟩
  | _ => none

/-- The span of a placed lexeme, if it is a comment. -/
def comment? : LexemeKind × Span → Option Span
  | (.comment, span) => some span
  | _ => none

/-- The scan of a text that was cut to its end. -/
def ofLexemes (lexemes : List Lexeme) : Scan :=
  let pieces := Lexeme.placed .start lexemes
  let finish := Position.start.after (Lexeme.texts lexemes)
  ⟨pieces.filterMap token? ++ [⟨.endOfInput, .point finish⟩], pieces.filterMap comment?⟩

/-- **The tokens and comments of a text**, or why there are none. -/
def ofText (source : String) : Except LexError Scan :=
  let lexemes := Lexeme.cut source.toList
  match lexemes.2 with
  | none => .ok (ofLexemes lexemes.1)
  | some stuck => .error (stuck.error (Position.start.after (Lexeme.texts lexemes.1)))

end Scan

end Idl
