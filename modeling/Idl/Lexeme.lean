import Idl.Text.Quoted
import Idl.Token

/-! # Lexemes

A text is cut from left to right into lexemes: single blanks, comments, and the texts of tokens. The
cut looks at characters only; where a lexeme stands is worked out later. It goes on until the text
is used up, or until nothing fits (`Stuck`).

* `first`: the lexeme at the front of a text, and the rest.
* `cut`: all lexemes of a text, and the fault that ended the cut, if one did.
* `eq_append_of_first`: a lexeme is never empty, and it is followed by the rest.
* `cut_cons_ok`, `cut_cons_error`: the cut of a text, one lexeme at a time. -/

namespace Idl

/-- The ways in which a text fails to be cut. -/
inductive LexFault where
  | unexpectedCharacter
  | unterminatedString
  | invalidEscape
  | unterminatedComment
  | malformedNumber
deriving DecidableEq, Repr

/-- What stands at a place where the cut cannot go on: the offending text, which begins after some
skipped characters. -/
structure Stuck where
  fault : LexFault
  skipped : List Char
  text : List Char
deriving DecidableEq, Repr

/-- What a lexeme is. -/
inductive LexemeKind where
  | blank
  | comment
  | token (kind : TokenKind)
deriving DecidableEq, Repr

/-- A piece of a text, with what it is. -/
structure Lexeme where
  kind : LexemeKind
  text : List Char
deriving DecidableEq, Repr

namespace Lexeme

/-! ### Classes of characters -/

/-- Space, tab, carriage return and line feed are blank. -/
def isBlank (c : Char) : Bool := c = ' ' || c = '\t' || c = '\r' || c = '\n'

/-- A word starts with an ASCII letter or an underscore. -/
def isWordStart (c : Char) : Bool := c.isAlpha || c = '_'

/-- A word goes on with ASCII letters, digits and underscores. -/
def isWordPart (c : Char) : Bool := c.isAlphanum || c = '_'

/-! ### Pieces of a text -/

/-- A word is a keyword if it spells one, and an identifier otherwise. -/
def wordKind (word : List Char) : TokenKind :=
  match Keyword.ofText? (String.ofList word) with
  | some keyword => .keyword keyword
  | none => .identifier (String.ofList word)

/-- The digits at the front of a text, with a dot and more digits if a digit follows the dot; and
the rest. -/
def numeral (text : List Char) : List Char × List Char :=
  match text.dropWhile Char.isDigit with
  | '.' :: d :: rest =>
    if d.isDigit then
      (text.takeWhile Char.isDigit ++ '.' :: (d :: rest).takeWhile Char.isDigit,
        (d :: rest).dropWhile Char.isDigit)
    else (text.takeWhile Char.isDigit, '.' :: d :: rest)
  | rest => (text.takeWhile Char.isDigit, rest)

/-- The text up to and with the first `*/`, and the rest; nothing if there is none. -/
def commentBody : List Char → Option (List Char × List Char)
  | [] => none
  | c :: rest =>
    if c = '*' ∧ rest.head? = some '/' then some (['*', '/'], rest.tail)
    else (commentBody rest).map fun r => (c :: r.1, r.2)

/-! ### The lexeme at the front -/

/-- A word, given its first character. -/
def word (c : Char) (rest : List Char) : Lexeme × List Char :=
  let text := c :: rest.takeWhile isWordPart
  (⟨.token (wordKind text), text⟩, rest.dropWhile isWordPart)

/-- A number, after the sign if it has one. -/
def number (sign text : List Char) : Lexeme × List Char :=
  let spelling := sign ++ (numeral text).1
  (⟨.token (.number (String.ofList spelling)), spelling⟩, (numeral text).2)

/-- A number behind a minus sign; a digit has to follow the sign. -/
def signed (rest : List Char) : Except Stuck (Lexeme × List Char) :=
  if rest.head?.any Char.isDigit then .ok (number ['-'] rest)
  else .error ⟨.malformedNumber, [], ['-']⟩

/-- A quoted text, behind its opening quote. -/
def string (rest : List Char) : Except Stuck (Lexeme × List Char) :=
  match Text.Quoted.read rest with
  | .closed text value rest' => .ok (⟨.token (.string (String.ofList value)), '"' :: text⟩, rest')
  | .unclosed text => .error ⟨.unterminatedString, [], '"' :: text⟩
  | .badEscape before e => .error ⟨.invalidEscape, '"' :: before, ['\\', e]⟩

/-- A comment, behind its slash: up to the end of the line after a second slash, up to the first
`*/` after an asterisk. A slash alone is no lexeme. -/
def comment (rest : List Char) : Except Stuck (Lexeme × List Char) :=
  match rest with
  | '/' :: _ => .ok (⟨.comment, '/' :: rest.takeWhile (· ≠ '\n')⟩, rest.dropWhile (· ≠ '\n'))
  | '*' :: body =>
    match commentBody body with
    | some (text, rest') => .ok (⟨.comment, '/' :: '*' :: text⟩, rest')
    | none => .error ⟨.unterminatedComment, [], ['/', '*']⟩
  | _ => .error ⟨.unexpectedCharacter, [], ['/']⟩

/-- A mark; any other character fits nowhere. -/
def mark (c : Char) (rest : List Char) : Except Stuck (Lexeme × List Char) :=
  match Punctuation.ofChar? c with
  | some p => .ok (⟨.token (.punctuation p), [c]⟩, rest)
  | none => .error ⟨.unexpectedCharacter, [], [c]⟩

/-- **The lexeme at the front of a text**, which its first character decides, and the rest. -/
def first (c : Char) (rest : List Char) : Except Stuck (Lexeme × List Char) :=
  if isBlank c then .ok (⟨.blank, [c]⟩, rest)
  else if c = '/' then comment rest
  else if c = '"' then string rest
  else if c = '-' then signed rest
  else if c.isDigit then .ok (number [] (c :: rest))
  else if isWordStart c then .ok (word c rest)
  else mark c rest

/-! ### Nothing is lost -/

theorem numeral_append (text : List Char) : (numeral text).1 ++ (numeral text).2 = text := by
  have h := List.takeWhile_append_dropWhile (p := Char.isDigit) (l := text)
  unfold numeral
  split
  · next d rest hd =>
    split
    · rw [List.append_assoc, List.cons_append, List.takeWhile_append_dropWhile, ← hd, h]
    · rw [← hd, h]
  · exact h

theorem numeral_ne_nil {c : Char} (h : c.isDigit = true) (rest : List Char) :
    (numeral (c :: rest)).1 ≠ [] := by
  have ht : (c :: rest).takeWhile Char.isDigit = c :: rest.takeWhile Char.isDigit := by simp [h]
  unfold numeral
  split
  · split <;> simp [ht]
  · simp [ht]

theorem eq_append_of_commentBody {input text rest : List Char}
    (h : commentBody input = some (text, rest)) : input = text ++ rest := by
  induction input generalizing text with
  | nil => cases h
  | cons c cs ih =>
    unfold commentBody at h
    split at h
    · next hc =>
      obtain ⟨rfl, rfl⟩ := Prod.mk.inj (Option.some.inj h)
      obtain ⟨rfl, hs⟩ := hc
      cases cs with
      | nil => cases hs
      | cons d ds => obtain rfl := Option.some.inj hs; rfl
    · obtain ⟨⟨t, r⟩, hb, he⟩ := Option.map_eq_some_iff.mp h
      obtain ⟨rfl, rfl⟩ := Prod.mk.inj he
      rw [ih hb]; rfl

/-- **A lexeme is never empty, and the rest follows it.** -/
theorem eq_append_of_first {c : Char} {input rest : List Char} {l : Lexeme}
    (h : first c input = .ok (l, rest)) : c :: input = l.text ++ rest ∧ l.text ≠ [] := by
  unfold first at h
  split at h
  · cases h; simp
  split at h
  · next hc =>
    subst hc
    unfold comment at h
    split at h
    · cases h; simp [List.takeWhile_append_dropWhile]
    · split at h
      · next hb => cases h; simp [eq_append_of_commentBody hb]
      · cases h
    · cases h
  split at h
  · next hc =>
    subst hc
    unfold string at h
    split at h
    · next hr => cases h; simp [Text.Quoted.eq_append_of_closed hr]
    · cases h
    · cases h
  split at h
  · next hc =>
    subst hc
    unfold signed at h
    split at h
    · cases h; simp [numeral_append]
    · cases h
  split at h
  · next hd => cases h; exact ⟨(numeral_append _).symm, numeral_ne_nil hd _⟩
  split at h
  · cases h; simp [List.takeWhile_append_dropWhile]
  · unfold mark at h
    split at h
    · cases h; simp
    · cases h

theorem length_lt_of_first {c : Char} {input rest : List Char} {l : Lexeme}
    (h : first c input = .ok (l, rest)) : rest.length < (c :: input).length := by
  obtain ⟨he, hn⟩ := eq_append_of_first h
  have := List.length_pos_iff.mpr hn
  rw [he, List.length_append]
  omega

/-! ### The cut -/

/-- The lexemes of a text behind some others, the last of which comes first, and what stopped the
cut before the end, if anything did. -/
def cutOnto (done : List Lexeme) : List Char → List Lexeme × Option Stuck
  | [] => (done.reverse, none)
  | c :: input =>
    match _h : first c input with
    | .ok (l, rest) => cutOnto (l :: done) rest
    | .error stuck => (done.reverse, some stuck)
termination_by text => text.length
decreasing_by exact length_lt_of_first _h

/-- **The lexemes of a text**, and what stopped the cut before the end, if anything did. -/
def cut (text : List Char) : List Lexeme × Option Stuck := cutOnto [] text

@[simp] theorem cut_nil : cut [] = ([], none) := by
  rw [cut, cutOnto]
  rfl

theorem cutOnto_cons_ok {c : Char} {input rest : List Char} {l : Lexeme}
    (h : first c input = .ok (l, rest)) (done : List Lexeme) :
    cutOnto done (c :: input) = cutOnto (l :: done) rest := by
  rw [cutOnto]
  split <;> simp_all

theorem cutOnto_cons_error {c : Char} {input : List Char} {stuck : Stuck}
    (h : first c input = .error stuck) (done : List Lexeme) :
    cutOnto done (c :: input) = (done.reverse, some stuck) := by
  rw [cutOnto]
  split <;> simp_all

/-- What is cut off a text does not depend on the lexemes before it. -/
theorem cutOnto_eq (done : List Lexeme) (text : List Char) :
    cutOnto done text = (done.reverse ++ (cut text).1, (cut text).2) := by
  -- The lexemes come off the front one by one, so the induction is on the length of what is left.
  induction hn : text.length using Nat.strongRecOn generalizing text done with
  | ind n ih =>
    cases text with
    | nil => simp [cutOnto]
    | cons c input =>
      cases hf : first c input with
      | error stuck => simp [cut, cutOnto_cons_error hf]
      | ok found =>
        obtain ⟨l, rest⟩ := found
        have hlt : rest.length < n := hn ▸ length_lt_of_first hf
        rw [cut, cutOnto_cons_ok hf, cutOnto_cons_ok hf, ih _ hlt _ rest rfl, ih _ hlt [l] rest rfl]
        simp

theorem cut_cons_ok {c : Char} {input rest : List Char} {l : Lexeme}
    (h : first c input = .ok (l, rest)) : cut (c :: input) = (l :: (cut rest).1, (cut rest).2) := by
  rw [cut, cutOnto_cons_ok h, cutOnto_eq]
  rfl

theorem cut_cons_error {c : Char} {input : List Char} {stuck : Stuck}
    (h : first c input = .error stuck) : cut (c :: input) = ([], some stuck) := by
  rw [cut, cutOnto_cons_error h]
  rfl

end Lexeme

end Idl
