import Idl.Proofs.Lexeme.LongestMatch

/-! # Texts that are cut by themselves

What a text is cut into can depend on what follows it: a word goes on with the letters behind it. A
text *yields* some tokens if it does not: it is cut into the same lexemes whatever follows, and
these tokens are all that is visible among them. Marks, blanks and quoted texts are such texts, and
so are words and numbers together with a character that ends them.

* `Yields.append`, `yields_flatMap`: texts one behind the other yield their tokens one behind the
  other.
* `Scan.ofText_of_yields`: the scan of a text holds the tokens that it yields, and no comment. -/

namespace Idl

namespace Lexeme

/-- **A text that yields some tokens**, whatever follows it, and no comment. -/
def Yields (text : List Char) (kinds : List TokenKind) : Prop :=
  ∃ ls, (ls.filter isVisible).map Lexeme.kind = kinds.map .token ∧
    ∀ rest, cut (text ++ rest) = (ls ++ (cut rest).1, (cut rest).2)

theorem yields_nil : Yields [] [] := ⟨[], rfl, fun _ => rfl⟩

/-- No token comes of nothing. -/
theorem eq_nil_of_yields_nil {kinds : List TokenKind} (h : Yields [] kinds) : kinds = [] := by
  obtain ⟨ls, hv, hc⟩ := h
  have hnil : ls = [] := by simpa using congrArg Prod.fst (hc [])
  subst hnil
  exact List.map_eq_nil_iff.mp hv.symm

/-! ### One lexeme at the front -/

section Front
variable {tail : List Char} {kinds : List TokenKind} (h : Yields tail kinds)
include h

theorem Yields.token {c : Char} {cs : List Char} {kind : TokenKind}
    (hf : ∀ rest, first c (cs ++ (tail ++ rest)) = .ok (⟨.token kind, c :: cs⟩, tail ++ rest)) :
    Yields (c :: (cs ++ tail)) (kind :: kinds) := by
  obtain ⟨ls, hv, hc⟩ := h
  refine ⟨⟨.token kind, c :: cs⟩ :: ls, ?_, fun rest => ?_⟩
  · rw [List.filter_cons_of_pos rfl, List.map_cons, hv, List.map_cons]
  · rw [List.cons_append, List.append_assoc, cut_cons_ok (hf rest), hc rest]
    rfl

theorem Yields.blank {c : Char} (hb : isBlank c = true) : Yields (c :: tail) kinds := by
  obtain ⟨ls, hv, hc⟩ := h
  refine ⟨⟨.blank, [c]⟩ :: ls, hv, fun rest => ?_⟩
  rw [List.cons_append, cut_cons_ok (first_blank hb _), hc rest]
  rfl

theorem Yields.blanks (n : Nat) : Yields (List.replicate n ' ' ++ tail) kinds := by
  induction n with
  | zero => exact h
  | succ n ih => exact ih.blank rfl

theorem Yields.mark (p : Punctuation) : Yields (p.char :: tail) (.punctuation p :: kinds) := by
  have hm : Yields (p.char :: ([] ++ tail)) (.punctuation p :: kinds) :=
    h.token fun _ => first_mark p _
  exact hm

/-- A text as it is written between quotes is a token that stands for it. -/
theorem Yields.quote (value : String) :
    Yields ((Text.Quoted.quote value).toList ++ tail) (.string value :: kinds) := by
  have hs : (Text.Quoted.quote value).toList ++ tail =
      '"' :: ((Text.Quoted.encode value.toList ++ ['"']) ++ tail) := by
    simp [Text.Quoted.quote]
  rw [hs]
  refine h.token fun rest => ?_
  have hf : ∀ cs, first '"' cs = string cs := fun _ => rfl
  rw [hf, string, List.append_assoc]
  simp [Text.Quoted.read_encode]

end Front

section Stop
variable {c : Char} {tail : List Char} {kinds : List TokenKind} (h : Yields (c :: tail) kinds)
include h

/-- A word yields its token if no letter of a word follows it. -/
theorem Yields.word (hc : isWordPart c = false) {text : List Char} (hw : Word text) :
    Yields (text ++ c :: tail) (wordKind text :: kinds) := by
  cases text with
  | nil => exact absurd hw id
  | cons d ds =>
    refine h.token fun rest => first_word hw fun e he => ?_
    cases he
    exact hc

/-- A number yields its token if no digit and no dot follows it. -/
theorem Yields.number (hc : c.isDigit = false ∧ c ≠ '.') {text : List Char} (hn : Number text) :
    Yields (text ++ c :: tail) (.number (String.ofList text) :: kinds) := by
  have hne : text ≠ [] := spelled_ne_nil (.number hn)
  obtain ⟨d, ds, rfl⟩ := List.exists_cons_of_ne_nil hne
  refine h.token fun rest => first_number hn fun e he => ?_
  cases he
  exact hc

end Stop

/-! ### One text behind the other -/

theorem Yields.append {text text' : List Char} {kinds kinds' : List TokenKind}
    (h : Yields text kinds) (h' : Yields text' kinds') :
    Yields (text ++ text') (kinds ++ kinds') := by
  obtain ⟨ls, hv, hc⟩ := h
  obtain ⟨ls', hv', hc'⟩ := h'
  refine ⟨ls ++ ls', ?_, fun rest => ?_⟩
  · rw [List.filter_append, List.map_append, hv, hv', List.map_append]
  · rw [List.append_assoc, hc, hc', List.append_assoc]

theorem yields_flatMap {α : Type} {text : α → List Char} {kinds : α → List TokenKind} {as : List α}
    (h : ∀ a ∈ as, Yields (text a) (kinds a)) : Yields (as.flatMap text) (as.flatMap kinds) := by
  induction as with
  | nil => exact yields_nil
  | cons a as ih =>
    obtain ⟨ha, has⟩ := List.forall_mem_cons.mp h
    exact ha.append (ih has)

end Lexeme

namespace Scan

open Lexeme

/-- What is visible among lexemes are the tokens of their scan. -/
theorem kinds_placed {ls : List Lexeme} {kinds : List TokenKind}
    (h : (ls.filter isVisible).map Lexeme.kind = kinds.map .token) (p : Position) :
    ((placed p ls).filterMap token?).map Token.kind = kinds ∧
      (placed p ls).filterMap comment? = [] := by
  induction ls generalizing kinds p with
  | nil =>
    obtain rfl : kinds = [] := List.map_eq_nil_iff.mp h.symm
    exact ⟨rfl, rfl⟩
  | cons l ls ih =>
    rw [placed_cons]
    obtain ⟨kind, text⟩ := l
    cases kind with
    | blank => exact ih h _
    | comment =>
      rw [List.filter_cons_of_pos rfl] at h
      cases kinds <;> simp at h
    | token kind =>
      rw [List.filter_cons_of_pos rfl] at h
      cases kinds with
      | nil => cases h
      | cons kind' kinds =>
        obtain ⟨hk, hks⟩ := List.cons.inj h
        cases hk
        obtain ⟨ht, hc⟩ := ih hks (p.after text)
        exact ⟨congrArg _ ht, hc⟩

/-- **The scan of a text holds the tokens that the text yields**, and no comment. -/
theorem ofText_of_yields {source : String} {kinds : List TokenKind}
    (h : Yields source.toList kinds) : ∃ scan, ofText source = .ok scan ∧
      scan.tokens.map Token.kind = kinds ++ [.endOfInput] ∧ scan.comments = [] := by
  obtain ⟨ls, hv, hc⟩ := h
  have hcut : cut source.toList = (ls, none) := by simpa using hc []
  obtain ⟨ht, hcomments⟩ := kinds_placed hv .start
  refine ⟨ofLexemes ls, ofText_eq_ok_iff.mpr ⟨ls, cut_eq_iff.mp hcut, rfl⟩, ?_, hcomments⟩
  rw [ofLexemes, List.map_append, ht]
  rfl

end Scan

end Idl
