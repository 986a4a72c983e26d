import Idl.Parse
import Idl.Proofs.Draft.SpanMap
import Idl.Proofs.Lexeme.LongestMatch

/-! # Tokens with separators between them

Tokens can be written with blanks and comments before, between and behind them. Words and numbers
need something between them; marks and quoted texts end by themselves, and end what stands before
them. A `SpacedText` is any such choice. Its scan holds its tokens, whatever separates them, and so
what it is parsed into depends on them alone, up to spans.

* `Separator`: blanks, comments up to their first `*/`, and comments up to a line feed.
* `Skipped`: a text that is cut by itself and holds no token; `skipped_separator`: separators are.
* `SpelledToken.first_append`: the token at the front of a text that does not go on with it.
* `SpacedText.exists_cut`: what a spaced text is cut into.
* `ofText_spaced`: its scan, and that the separators have no part in parsing. -/

namespace Idl

namespace Lexeme

/-- A token as it is written. -/
structure SpelledToken where
  kind : TokenKind
  text : List Char
  spelled : Spelled (.token kind) text

/-- Whether a token ends by itself and ends what stands before it: a mark or a quoted text. -/
def SpelledToken.isDelimited (t : SpelledToken) : Bool :=
  match t.kind with
  | .punctuation _ | .string _ => true
  | _ => false

/-! ### Separators -/

/-- A piece of a separator: a blank, or a comment with what ends it. -/
inductive Filler : List Char → Prop where
  | blank {c : Char} (h : isBlank c = true) : Filler [c]
  | blockComment {body : List Char} (h : ¬ ['*', '/'] <:+: body ++ ['*']) :
      Filler ('/' :: '*' :: (body ++ ['*', '/']))
  | lineComment {body : List Char} (h : ∀ c ∈ body, c ≠ '\n') :
      Filler ('/' :: '/' :: (body ++ ['\n']))

/-- **What can stand between tokens.** -/
inductive Separator : List Char → Prop where
  | nil : Separator []
  | cons {filler rest : List Char} (first : Filler filler) (later : Separator rest) :
      Separator (filler ++ rest)

/-- What can stand behind the last token: the end of the text ends a comment too. -/
inductive LastSeparator : List Char → Prop where
  | separator {gap : List Char} (h : Separator gap) : LastSeparator gap
  | lineComment {gap body : List Char} (h : Separator gap) (hb : ∀ c ∈ body, c ≠ '\n') :
      LastSeparator (gap ++ '/' :: '/' :: body)

/-- Neighbours, each behind its separator, that do not run together: one of them ends by itself, or
the separator between them is not empty. -/
def Apart (x y : List Char × SpelledToken) : Prop :=
  x.2.isDelimited = true ∨ y.2.isDelimited = true ∨ y.1 ≠ []

/-- **Tokens, each behind its separator, and a separator at the end.** -/
structure SpacedText where
  pieces : List (List Char × SpelledToken)
  last : List Char
  separators : ∀ x ∈ pieces, Separator x.1
  lastSeparator : LastSeparator last
  apart : pieces.IsChain Apart

/-- The characters of tokens behind their separators. -/
def spacedChars (pieces : List (List Char × SpelledToken)) (last : List Char) : List Char :=
  pieces.flatMap (fun x => x.1 ++ x.2.text) ++ last

namespace SpacedText

/-- The text that is written. -/
def text (s : SpacedText) : String := String.ofList (spacedChars s.pieces s.last)

/-- The tokens that are written. -/
def kinds (s : SpacedText) : List TokenKind := s.pieces.map fun x => x.2.kind

end SpacedText

/-! ### Texts without tokens -/

/-- The token that a lexeme is, if it is one. -/
def tokenKind? (l : Lexeme) : Option TokenKind :=
  match l.kind with
  | .token kind => some kind
  | _ => none

/-- A text that is cut by itself, whatever follows it, and holds no token. -/
def Skipped (text : List Char) : Prop :=
  ∃ ls, ls.filterMap tokenKind? = [] ∧
    ∀ rest, cut (text ++ rest) = (ls ++ (cut rest).1, (cut rest).2)

theorem skipped_nil : Skipped [] := ⟨[], rfl, fun _ => rfl⟩

theorem Skipped.append {text text' : List Char} (h : Skipped text) (h' : Skipped text') :
    Skipped (text ++ text') := by
  obtain ⟨ls, hk, hc⟩ := h
  obtain ⟨ls', hk', hc'⟩ := h'
  refine ⟨ls ++ ls', by rw [List.filterMap_append, hk, hk']; rfl, fun rest => ?_⟩
  rw [List.append_assoc, hc, hc', List.append_assoc]

/-- A blank or a comment in front of a text is passed over. -/
theorem skipped_filler {text : List Char} (h : Filler text) : Skipped text := by
  cases h with
  | @blank c hb =>
    refine ⟨[⟨.blank, [c]⟩], rfl, fun rest => ?_⟩
    exact cut_cons_ok (first_blank hb rest)
  | @blockComment body hb =>
    refine ⟨[⟨.comment, '/' :: '*' :: (body ++ ['*', '/'])⟩], rfl, fun rest => ?_⟩
    have hcut := cut_cons_ok (first_blockComment hb rest)
    simpa using hcut
  | @lineComment body hb =>
    -- The line feed is no part of the comment, and is cut as a blank behind it.
    refine ⟨[⟨.comment, '/' :: '/' :: body⟩, ⟨.blank, ['\n']⟩], rfl, fun rest => ?_⟩
    have hstop : ∀ c ∈ ('\n' :: rest).head?, c = '\n' := by simp
    have hcut := cut_cons_ok (first_lineComment hb hstop)
    rw [cut_cons_ok (first_blank rfl rest)] at hcut
    simpa using hcut

/-- **A separator is passed over.** -/
theorem skipped_separator {gap : List Char} (h : Separator gap) : Skipped gap := by
  induction h with
  | nil => exact skipped_nil
  | cons first _ ih => exact (skipped_filler first).append ih

/-- The separator at the end of a text holds no token. -/
theorem exists_cut_lastSeparator {last : List Char} (h : LastSeparator last) :
    ∃ ls, cut last = (ls, none) ∧ ls.filterMap tokenKind? = [] := by
  cases h with
  | separator hg =>
    obtain ⟨ls, hk, hc⟩ := skipped_separator hg
    have hcut := hc []
    rw [List.append_nil, cut_nil, List.append_nil] at hcut
    exact ⟨ls, hcut, hk⟩
  | @lineComment gap body hg hb =>
    obtain ⟨ls, hk, hc⟩ := skipped_separator hg
    have hend : ∀ c ∈ ([] : List Char).head?, c = '\n' := by simp
    have hcomment := cut_cons_ok (first_lineComment hb hend)
    rw [List.append_nil, cut_nil] at hcomment
    refine ⟨ls ++ [⟨.comment, '/' :: '/' :: body⟩], by rw [hc, hcomment], ?_⟩
    rw [List.filterMap_append, hk]
    rfl

/-! ### What ends a token -/

/-- A text that a word or a number in front of it does not go on with. -/
def Stops (rest : List Char) : Prop :=
  ∀ c ∈ rest.head?, isWordPart c = false ∧ c ≠ '.'

theorem stops_cons {c : Char} (rest : List Char) (h : isWordPart c = false ∧ c ≠ '.') :
    Stops (c :: rest) := by
  rintro d hd
  cases hd
  exact h

theorem stops_filler {filler : List Char} (h : Filler filler) (rest : List Char) :
    Stops (filler ++ rest) := by
  cases h with
  | blank hb =>
    refine stops_cons _ ?_
    rcases isBlank_iff.mp hb with rfl | rfl | rfl | rfl <;> decide
  | blockComment => exact stops_cons _ (by decide)
  | lineComment => exact stops_cons _ (by decide)

theorem stops_separator {gap : List Char} (h : Separator gap) (hne : gap ≠ []) (rest : List Char) :
    Stops (gap ++ rest) := by
  cases h with
  | nil => exact absurd rfl hne
  | cons first _ => rw [List.append_assoc]; exact stops_filler first _

theorem stops_lastSeparator {last : List Char} (h : LastSeparator last) : Stops last := by
  have hgap : ∀ gap rest, Separator gap → Stops rest → Stops (gap ++ rest) := by
    intro gap rest hg hr
    by_cases hne : gap = []
    · subst hne; exact hr
    · exact stops_separator hg hne rest
  cases h with
  | separator hg =>
    have hs := hgap _ [] hg (by simp [Stops])
    rwa [List.append_nil] at hs
  | lineComment hg hb => exact hgap _ _ hg (stops_cons _ (by decide))

theorem stops_delimited {t : SpelledToken} (h : t.isDelimited = true) (rest : List Char) :
    Stops (t.text ++ rest) := by
  obtain ⟨kind, text, hs⟩ := t
  cases hs with
  | string => exact stops_cons _ (by decide)
  | mark p =>
    refine stops_cons _ ?_
    cases p <;> decide
  | number => cases h
  | keyword => cases h
  | identifier => cases h

/-- **A token at the front of a text that does not go on with it.** -/
theorem SpelledToken.first_append (t : SpelledToken) {rest : List Char}
    (h : t.isDelimited = true ∨ Stops rest) : ∃ c cs, t.text = c :: cs ∧
      first c (cs ++ rest) = .ok (⟨.token t.kind, t.text⟩, rest) := by
  obtain ⟨kind, text, hs⟩ := t
  obtain ⟨c, cs, rfl⟩ := List.exists_cons_of_ne_nil (spelled_ne_nil hs)
  refine ⟨c, cs, rfl, ?_⟩
  have hword : ∀ {t : List Char}, Word t → t = c :: cs → Stops rest →
      first c (cs ++ rest) = .ok (⟨.token (wordKind (c :: cs)), c :: cs⟩, rest) := by
    rintro t hw rfl hr
    exact first_word hw fun d hd => (hr d hd).1
  generalize ht : c :: cs = text at hs
  cases hs with
  | string hq => cases ht; simpa using first_string hq rest
  | mark p => cases ht; exact first_mark p rest
  | number hn =>
    have hr : Stops rest := h.resolve_left (by simp [isDelimited])
    subst ht
    exact first_number hn fun d hd => (hr d hd).imp_left not_isDigit_of_not_isWordPart
  | keyword k =>
    have hr : Stops rest := h.resolve_left (by simp [isDelimited])
    have hf := hword (word_keyword k) ht.symm hr
    rwa [ht, wordKind_keyword] at hf
  | identifier hw hk =>
    have hr : Stops rest := h.resolve_left (by simp [isDelimited])
    have hf := hword hw ht.symm hr
    rwa [ht, wordKind_identifier hk] at hf

theorem spacedChars_cons (gap : List Char) (t : SpelledToken)
    (pieces : List (List Char × SpelledToken)) (last : List Char) :
    spacedChars ((gap, t) :: pieces) last = gap ++ (t.text ++ spacedChars pieces last) := by
  simp [spacedChars]

/-- What follows a token ends it, unless the token ends by itself. -/
theorem stops_spacedChars {gap : List Char} {t : SpelledToken}
    {pieces : List (List Char × SpelledToken)} {last : List Char}
    (hseps : ∀ x ∈ pieces, Separator x.1) (hlast : LastSeparator last)
    (hapart : List.IsChain Apart ((gap, t) :: pieces)) :
    t.isDelimited = true ∨ Stops (spacedChars pieces last) := by
  cases hapart with
  | singleton => exact .inr (stops_lastSeparator hlast)
  | @cons_cons _ next later h _ =>
    obtain ⟨gap', u⟩ := next
    have hsep : Separator gap' := hseps _ List.mem_cons_self
    rw [spacedChars_cons]
    by_cases hne : gap' = []
    · rw [hne, List.nil_append]
      rcases h with h | h | h
      · exact .inl h
      · exact .inr (stops_delimited h _)
      · exact absurd hne h
    · exact .inr (stops_separator hsep hne _)

/-- **A spaced text is cut into its tokens**, with blanks and comments among them. -/
theorem SpacedText.exists_cut (s : SpacedText) :
    ∃ ls, cut (spacedChars s.pieces s.last) = (ls, none) ∧ ls.filterMap tokenKind? = s.kinds := by
  obtain ⟨pieces, last, hseps, hlast, hapart⟩ := s
  unfold kinds
  induction pieces with
  | nil => exact exists_cut_lastSeparator hlast
  | cons x pieces ih =>
    obtain ⟨gap, t⟩ := x
    obtain ⟨hgap, hseps⟩ := List.forall_mem_cons.mp hseps
    have hlater : pieces.IsChain Apart := by
      cases hapart with
      | singleton => exact .nil
      | cons_cons _ h => exact h
    obtain ⟨ls, hcut, hkinds⟩ := ih hseps hlater
    obtain ⟨c, cs, hc, hfirst⟩ := t.first_append (stops_spacedChars hseps hlast hapart)
    have htoken : cut (t.text ++ spacedChars pieces last) =
        (⟨.token t.kind, t.text⟩ :: ls, none) := by
      rw [hc, List.cons_append, cut_cons_ok hfirst, hcut, hc]
    obtain ⟨ls', hk, hskip⟩ := skipped_separator hgap
    refine ⟨ls' ++ ⟨.token t.kind, t.text⟩ :: ls, ?_, ?_⟩
    · rw [spacedChars_cons, hskip, htoken]
    · rw [List.filterMap_append, hk, List.map_cons, ← hkinds]
      rfl

end Lexeme

open Lexeme

/-- The tokens of a scan are those among its lexemes. -/
theorem Scan.kinds_ofLexemes (ls : List Lexeme) :
    (ofLexemes ls).tokens.map Token.kind = ls.filterMap tokenKind? ++ [.endOfInput] := by
  have hplaced : ∀ p, ((placed p ls).filterMap token?).map Token.kind =
      ls.filterMap tokenKind? := by
    induction ls with
    | nil => exact fun _ => rfl
    | cons l ls ih =>
      intro p
      rw [placed_cons]
      obtain ⟨kind, text⟩ := l
      cases kind with
      | blank => exact ih _
      | comment => exact ih _
      | token kind => exact congrArg _ (ih _)
  rw [ofLexemes, List.map_append, hplaced]
  rfl

/-! ### Parsing apart from spans -/

/-- **Results that differ in spans only:** programs that are the same without them, or errors of one
sort that expected and found the same. -/
inductive SameButSpans : Except SyntaxError (List Module) → Except SyntaxError (List Module) → Prop
  where
  | ok {program program' : List Module} (h : eraseSpans program = eraseSpans program') :
      SameButSpans (.ok program) (.ok program')
  | error {e e' : ParseError} (hcode : e.code = e'.code) (hexpected : e.expected = e'.expected)
      (hfound : e.found = e'.found) : SameButSpans (.error (.parse e)) (.error (.parse e'))

section MapSpan
variable (f : Span → Span)

theorem ParseError.code_mapSpan (e : ParseError) : (e.mapSpan f).code = e.code := by
  cases e <;> rfl

theorem ParseError.expected_mapSpan (e : ParseError) : (e.mapSpan f).expected = e.expected := by
  cases e <;> rfl

theorem ParseError.found_mapSpan (e : ParseError) : (e.mapSpan f).found = e.found := by
  cases e <;> rfl

end MapSpan

/-- Errors that are the same without spans are of one sort and expected and found the same. -/
theorem ParseError.alike_of_mapSpan_eq {f : Span → Span} {e e' : ParseError}
    (h : e.mapSpan f = e'.mapSpan f) :
    e.code = e'.code ∧ e.expected = e'.expected ∧ e.found = e'.found := by
  refine ⟨?_, ?_, ?_⟩
  · rw [← e.code_mapSpan f, h, e'.code_mapSpan]
  · rw [← e.expected_mapSpan f, h, e'.expected_mapSpan]
  · rw [← e.found_mapSpan f, h, e'.found_mapSpan]

/-- Tokens of the same kinds are parsed alike. -/
theorem sameButSpans_of_kinds {ts us : List Token} (h : ts.map Token.kind = us.map Token.kind)
    (ht : ∃ t ∈ ts, t.isEnd = true) (hu : ∃ t ∈ us, t.isEnd = true) :
    SameButSpans ((parse ts).mapError .parse) ((parse us).mapError .parse) := by
  have hbare : ts.map (fun t => t.kind.token) = us.map (fun t => t.kind.token) := by
    have hmap := congrArg (List.map TokenKind.token) h
    rwa [List.map_map, List.map_map] at hmap
  have heq := (parse_eraseSpans ht).symm.trans ((congrArg parse hbare).trans (parse_eraseSpans hu))
  cases hts : parse ts with
  | error e =>
    cases hus : parse us with
    | error e' =>
      rw [hts, hus] at heq
      obtain ⟨hc, he, hf⟩ := ParseError.alike_of_mapSpan_eq (Except.error.inj heq)
      exact .error hc he hf
    | ok program' => rw [hts, hus] at heq; cases heq
  | ok program =>
    cases hus : parse us with
    | error e' => rw [hts, hus] at heq; cases heq
    | ok program' =>
      rw [hts, hus] at heq
      exact .ok (Except.ok.inj heq)

theorem Lexeme.SpacedText.exists_scan (s : SpacedText) : ∃ scan, Scan.ofText s.text = .ok scan ∧
    scan.tokens.map Token.kind = s.kinds ++ [.endOfInput] := by
  obtain ⟨ls, hcut, hkinds⟩ := s.exists_cut
  have hl : LongestCut s.text.toList ls := by
    rw [SpacedText.text, String.toList_ofList]
    exact cut_eq_iff.mp hcut
  exact ⟨_, Scan.ofText_eq_ok_iff.mpr ⟨ls, hl, rfl⟩, by rw [Scan.kinds_ofLexemes, hkinds]⟩

/-- **Separators make no difference.** Whatever separates some tokens, the scan of the text holds
these tokens and an end token; so texts that write the same tokens with other separators are parsed
alike, up to spans. -/
theorem ofText_spaced (s : SpacedText) :
    (∃ scan, Scan.ofText s.text = .ok scan ∧
      scan.tokens.map Token.kind = s.kinds ++ [.endOfInput]) ∧
    ∀ s' : SpacedText, s'.kinds = s.kinds →
      SameButSpans (parseText s.text) (parseText s'.text) := by
  refine ⟨s.exists_scan, fun s' hkinds => ?_⟩
  obtain ⟨scan, hscan, hk⟩ := s.exists_scan
  obtain ⟨scan', hscan', hk'⟩ := s'.exists_scan
  rw [parseText_of_ofText hscan, parseText_of_ofText hscan']
  exact sameButSpans_of_kinds (by rw [hk, hk', hkinds]) (Token.exists_end hk) (Token.exists_end hk')

/-- A name of one letter. -/
def letterM : SpelledToken where
  kind := _
  text := ['M']
  spelled := .identifier (by decide) fun k => by cases k <;> decide +kernel

/-- `module M{}` with as few separators as possible. -/
def tightModule : SpacedText where
  pieces := [([], ⟨_, _, .keyword .module⟩),
    ([' '], letterM),
    ([], ⟨_, _, .mark .openBrace⟩), ([], ⟨_, _, .mark .closeBrace⟩)]
  last := []
  separators := by
    have hspace : Separator ([' '] ++ []) := .cons (.blank rfl) .nil
    rintro x hx
    simp only [List.mem_cons, List.not_mem_nil, or_false] at hx
    rcases hx with rfl | rfl | rfl | rfl
    · exact .nil
    · exact hspace
    · exact .nil
    · exact .nil
  lastSeparator := .separator .nil
  apart := by simp [Apart, SpelledToken.isDelimited]

/-- The same module with comments, of which the last one ends with the text. -/
def looseModule : SpacedText where
  pieces := [("/*/*/".toList, ⟨_, _, .keyword .module⟩),
    ("//\x7d\n".toList, letterM),
    ([], ⟨_, _, .mark .openBrace⟩), (['\t'], ⟨_, _, .mark .closeBrace⟩)]
  last := "//".toList
  separators := by
    have hblock : Separator ('/' :: '*' :: (['/'] ++ ['*', '/']) ++ []) :=
      .cons (.blockComment (by decide)) .nil
    have hline : Separator ('/' :: '/' :: (['}'] ++ ['\n']) ++ []) :=
      .cons (.lineComment (by simp)) .nil
    have htab : Separator (['\t'] ++ []) := .cons (.blank rfl) .nil
    rintro x hx
    simp only [List.mem_cons, List.not_mem_nil, or_false] at hx
    rcases hx with rfl | rfl | rfl | rfl
    · exact hblock
    · exact hline
    · exact .nil
    · exact htab
  lastSeparator := by
    have hcomment : LastSeparator ([] ++ '/' :: '/' :: []) := .lineComment .nil (by simp)
    exact hcomment
  apart := by simp [Apart, SpelledToken.isDelimited]

theorem parseText_spaced_module :
    tightModule.text = "module M{}" ∧ looseModule.text = "/*/*/module//\x7d\nM\x7b\t\x7d//" ∧
      looseModule.kinds = tightModule.kinds ∧
      SameButSpans (parseText tightModule.text) (parseText looseModule.text) := by
  have hkinds : looseModule.kinds = tightModule.kinds := rfl
  exact ⟨by decide +kernel, by decide +kernel, hkinds, (ofText_spaced tightModule).2 _ hkinds⟩

end Idl
