import Idl.Proofs.Lexeme.Slices

/-! # Where a cut is stuck

A text that cannot be scanned is cut up to some place where no text of a class stands
(`Lexeme.StuckBehind`). There is at most one such place, since every lexeme before it is the longest
at its own. What is wrong there depends on the rest of the text alone (`Lexeme.Wrong`):

* a quote begins a text that is not closed on its line, or whose first fault is a bad escape;
* a minus sign has no digit behind it;
* a comment is open to the end;
* any other character belongs to no class.

The scanner finds this place and this fault (`Lexeme.cut_eq_some_iff`): it stops at the first
character where no class fits (`Lexeme.exists_first_error_iff`) and tells what is wrong with it
(`Lexeme.wrong_of_first`).

* `Scan.ofText_stuck`: a scan fails exactly where the cut is stuck, and says why. -/

namespace Idl

namespace Lexeme

open Text.Quoted (escapes)

/-! ### Quoted texts that are not closed -/

/-- **A bad escape behind an opening quote:** a backslash with a character that stands for nothing,
behind characters that can stand between quotes. -/
structure BadEscape (input before : List Char) (e : Char) : Prop where
  quotable : ∃ value, Quotable before value
  unknown : ∀ c, (c, e) ∉ escapes
  front : before ++ ['\\', e] <+: input

section Quoted
open Text.Quoted

theorem ofLetter?_eq_none_iff {e : Char} : ofLetter? e = none ↔ ∀ c, (c, e) ∉ escapes := by
  constructor
  · intro h c hc
    have hsome := (of_mem_escapes _ hc).2
    rw [h] at hsome
    cases hsome
  · intro h
    refine Option.eq_none_iff_forall_ne_some.mpr fun c hc => ?_
    exact h c (mem_of_ofLetter? hc)

theorem read_append_of_quotable {text value : List Char} (h : Quotable text value)
    {rest before : List Char} {e : Char} (hr : read rest = .badEscape before e) :
    read (text ++ rest) = .badEscape (text ++ before) e := by
  induction h with
  | nil => exact hr
  | @plain c text value hq hb hn _ ih =>
    have hstep : read (c :: (text ++ rest)) = (read (text ++ rest)).push [c] c := by
      rw [read.eq_def]
      simp [hq, hb, hn]
    rw [List.cons_append, hstep, ih]
    rfl
  | @escape c e' text value he _ ih =>
    rw [List.cons_append, List.cons_append, read_escape (of_mem_escapes _ he).2, ih]
    rfl

/-- **Reading stops at the first bad escape.** -/
theorem read_of_badEscape {input before : List Char} {e : Char} (h : BadEscape input before e) :
    read input = .badEscape before e := by
  obtain ⟨⟨value, hq⟩, hunknown, rest, rfl⟩ := h
  have hbad : read ('\\' :: e :: rest) = .badEscape [] e := by
    rw [read.eq_def]
    simp [ofLetter?_eq_none_iff.mpr hunknown]
  have hread := read_append_of_quotable hq hbad
  rw [List.append_nil] at hread
  rw [List.append_assoc]
  exact hread

theorem Reading.push_eq_badEscape_iff {r : Reading} {text before : List Char} {c e : Char} :
    r.push text c = .badEscape before e ↔
      ∃ later, r = .badEscape later e ∧ before = text ++ later := by
  rcases r with _ | _ | ⟨later, e'⟩
  · simp [Reading.push]
  · simp [Reading.push]
  · simp only [Reading.push, Reading.badEscape.injEq]
    constructor
    · rintro ⟨rfl, rfl⟩
      exact ⟨later, ⟨rfl, rfl⟩, rfl⟩
    · rintro ⟨_, ⟨rfl, rfl⟩, rfl⟩
      exact ⟨rfl, rfl⟩

theorem Reading.push_eq_unclosed_iff {r : Reading} {text read : List Char} {c : Char} :
    r.push text c = .unclosed read ↔ ∃ later, r = .unclosed later ∧ read = text ++ later := by
  rcases r with _ | later | _
  · simp [Reading.push]
  · simp [Reading.push, eq_comm]
  · simp [Reading.push]

theorem badEscape_of_read {input before : List Char} {e : Char}
    (h : read input = .badEscape before e) : BadEscape input before e := by
  fun_induction read input generalizing before with
  | case1 => cases h
  | case2 => cases h
  | case3 => cases h
  | case4 => cases h
  | case5 e' tail c hc _ _ ih =>
    obtain ⟨later, hr, rfl⟩ := Reading.push_eq_badEscape_iff.mp h
    obtain ⟨⟨value, hq⟩, hunknown, hfront⟩ := ih hr
    refine ⟨⟨c :: value, .escape (mem_of_ofLetter? hc) hq⟩, hunknown, ?_⟩
    exact List.cons_prefix_cons.mpr ⟨rfl, List.cons_prefix_cons.mpr ⟨rfl, hfront⟩⟩
  | case6 e' tail hnone =>
    cases h
    exact ⟨⟨[], .nil⟩, ofLetter?_eq_none_iff.mp hnone, tail, rfl⟩
  | case7 c tail hquote hline hslash ih =>
    obtain ⟨later, hr, rfl⟩ := Reading.push_eq_badEscape_iff.mp h
    obtain ⟨⟨value, hq⟩, hunknown, hfront⟩ := ih hr
    refine ⟨⟨c :: value, .plain hquote hslash hline hq⟩, hunknown, ?_⟩
    exact List.cons_prefix_cons.mpr ⟨rfl, hfront⟩

/-- **A text that is not closed is read to the end of its line.** -/
theorem eq_takeWhile_of_unclosed {input text : List Char} (h : read input = .unclosed text) :
    text = input.takeWhile (· ≠ '\n') := by
  fun_induction read input generalizing text with
  | case1 => cases h; rfl
  | case2 => cases h
  | case3 => cases h; rfl
  | case4 => cases h; rfl
  | case5 e tail c hc _ _ ih =>
    obtain ⟨later, hr, rfl⟩ := Reading.push_eq_unclosed_iff.mp h
    -- The letter of an escape is no line feed, so the line goes on behind it.
    have hletter : e ≠ '\n' := by
      rintro rfl
      have hnone : ofLetter? '\n' = none := by decide
      rw [hnone] at hc
      cases hc
    simp [ih hr, hletter]
  | case6 => cases h
  | case7 c tail _ hline _ ih =>
    obtain ⟨later, hr, rfl⟩ := Reading.push_eq_unclosed_iff.mp h
    simp [ih hr, hline]

end Quoted

/-! ### What is wrong -/

/-- No text of a class stands at the front. -/
def Unmatched (rest : List Char) : Prop := ∀ kind text, Spelled kind text → ¬ text <+: rest

/-- **What is wrong with a rest that no lexeme begins.** -/
inductive Wrong : List Char → Stuck → Prop where
  | badEscape {input before : List Char} {e : Char} (h : BadEscape input before e) :
      Wrong ('"' :: input) ⟨.invalidEscape, '"' :: before, ['\\', e]⟩
  | unclosed {input : List Char} (h : ∀ before e, ¬ BadEscape input before e) :
      Wrong ('"' :: input) ⟨.unterminatedString, [], '"' :: input.takeWhile (· ≠ '\n')⟩
  | sign {input : List Char} : Wrong ('-' :: input) ⟨.malformedNumber, [], ['-']⟩
  | comment {input : List Char} :
      Wrong ('/' :: '*' :: input) ⟨.unterminatedComment, [], ['/', '*']⟩
  | character {c : Char} {input : List Char} (hq : c ≠ '"') (hs : c ≠ '-')
      (hc : ¬ ['/', '*'] <+: c :: input) :
      Wrong (c :: input) ⟨.unexpectedCharacter, [], [c]⟩

/-- The rest of the text determines what is wrong with it. -/
theorem Wrong.unique {rest : List Char} {stuck stuck' : Stuck} (h : Wrong rest stuck)
    (h' : Wrong rest stuck') : stuck = stuck' := by
  rcases h with hbad | hnone | _ | _ | ⟨hq, hs, hc⟩
  · rcases h' with hbad' | hnone' | _ | _ | ⟨hq', -, -⟩
    · have hread := read_of_badEscape hbad
      rw [read_of_badEscape hbad'] at hread
      cases hread
      rfl
    · exact absurd hbad (hnone' _ _)
    · exact absurd rfl hq'
  · rcases h' with hbad' | hnone' | _ | _ | ⟨hq', -, -⟩
    · exact absurd hbad' (hnone _ _)
    · rfl
    · exact absurd rfl hq'
  · rcases h' with _ | _ | _ | _ | ⟨-, hs', -⟩
    · rfl
    · exact absurd rfl hs'
  · rcases h' with _ | _ | _ | _ | ⟨-, -, hc'⟩
    · rfl
    · exact absurd ⟨_, rfl⟩ hc'
  · rcases h' with _ | _ | _ | _ | _
    · exact absurd rfl hq
    · exact absurd rfl hq
    · exact absurd rfl hs
    · exact absurd ⟨_, rfl⟩ hc
    · rfl

/-- **There is no lexeme exactly if no text of a class stands at the front.** -/
theorem exists_first_error_iff {c : Char} {input : List Char} :
    (∃ stuck, first c input = .error stuck) ↔ Unmatched (c :: input) := by
  constructor
  · rintro ⟨stuck, hstuck⟩ kind text hs ⟨rest, hrest⟩
    obtain ⟨d, ds, rfl⟩ := List.exists_cons_of_ne_nil (spelled_ne_nil hs)
    rw [List.cons_append] at hrest
    obtain ⟨rfl, rfl⟩ := List.cons.inj hrest
    obtain ⟨l, r, hfirst, -⟩ := exists_first_of_spelled hs rest
    rw [hstuck] at hfirst
    cases hfirst
  · intro h
    rcases hf : first c input with stuck | ⟨l, rest⟩
    · exact ⟨stuck, rfl⟩
    · have happ := (eq_append_of_first hf).1
      exact absurd ⟨rest, happ.symm⟩ (h l.kind l.text (spelled_of_first hf))

/-- **Where there is no lexeme, the scanner tells what is wrong.** -/
theorem wrong_of_first {c : Char} {input : List Char} {stuck : Stuck}
    (h : first c input = .error stuck) : Wrong (c :: input) stuck := by
  unfold first at h
  split_ifs at h with hblank hslash hquote hminus
  · subst hslash
    unfold comment at h
    split at h
    · cases h
    · split at h
      · cases h
      · cases h
        exact .comment
    · next hline hblock =>
      cases h
      refine .character (by decide) (by decide) ?_
      rintro ⟨behind, hbehind⟩
      obtain ⟨-, hinput⟩ := List.cons.inj hbehind
      exact hblock behind hinput.symm
  · subst hquote
    unfold string at h
    rcases hr : Text.Quoted.read input with _ | text | ⟨before, e⟩
    · rw [hr] at h
      cases h
    · rw [hr] at h
      cases h
      rw [eq_takeWhile_of_unclosed hr]
      refine .unclosed fun before e hbad => ?_
      rw [read_of_badEscape hbad] at hr
      cases hr
    · rw [hr] at h
      cases h
      exact .badEscape (badEscape_of_read hr)
  · subst hminus
    unfold signed at h
    split_ifs at h
    cases h
    exact .sign
  · unfold mark at h
    split at h
    · cases h
    · cases h
      refine .character hquote hminus ?_
      rintro ⟨behind, hbehind⟩
      exact hslash (List.cons.inj hbehind).1.symm

theorem exists_wrong {rest : List Char} (hne : rest ≠ []) (h : Unmatched rest) :
    ∃ stuck, Wrong rest stuck := by
  obtain ⟨c, input, rfl⟩ := List.exists_cons_of_ne_nil hne
  obtain ⟨stuck, hf⟩ := exists_first_error_iff.mpr h
  exact ⟨stuck, wrong_of_first hf⟩

/-! ### The place -/

/-- **The place where a cut by longest match cannot go on:** behind some lexemes, each the longest
text of a class at its place, something is left and no text of a class stands at its front. The rest
is in view when the lexemes are measured: a comment does not end where a foreign letter follows. -/
structure StuckBehind (source : List Char) (ls : List Lexeme) (rest : List Char) : Prop where
  split : source = texts ls ++ rest
  longest : LongestBefore rest ls
  rest_ne_nil : rest ≠ []
  unmatched : Unmatched rest

theorem stuckBehind_of_cut {text : List Char} {ls : List Lexeme} {stuck : Stuck}
    (h : cut text = (ls, some stuck)) : ∃ rest, StuckBehind text ls rest ∧ Wrong rest stuck := by
  induction ls generalizing text with
  | nil =>
    rcases text with _ | ⟨c, input⟩
    · rw [cut_nil] at h
      cases h
    · rcases hf : first c input with stuck' | ⟨l, rest⟩
      · rw [cut_cons_error hf] at h
        cases h
        have hunmatched := exists_first_error_iff.mp ⟨stuck, hf⟩
        exact ⟨c :: input, ⟨rfl, trivial, by simp, hunmatched⟩, wrong_of_first hf⟩
      · rw [cut_cons_ok hf] at h
        cases h
  | cons l ls ih =>
    rcases text with _ | ⟨c, input⟩
    · rw [cut_nil] at h
      cases h
    · rcases hf : first c input with stuck' | ⟨l', tail⟩
      · rw [cut_cons_error hf] at h
        cases h
      · rw [cut_cons_ok hf] at h
        obtain ⟨hcons, hstuck⟩ := Prod.mk.inj h
        obtain ⟨rfl, hls⟩ := List.cons.inj hcons
        obtain ⟨rest, ⟨hsplit, hlongest, hne, hunmatched⟩, hwrong⟩ := ih (Prod.ext hls hstuck)
        obtain ⟨happ, hfirst⟩ := first_eq_ok_iff.mp hf
        refine ⟨rest, ⟨?_, ⟨?_, hlongest⟩, hne, hunmatched⟩, hwrong⟩
        · rw [happ, hsplit, texts_cons, List.append_assoc]
        · rw [← hsplit]
          exact hfirst

/-- **The cut of a text is stuck where no class fits, for what is wrong there.** -/
theorem cut_eq_some_iff {text : List Char} {ls : List Lexeme} {stuck : Stuck} :
    cut text = (ls, some stuck) ↔ ∃ rest, StuckBehind text ls rest ∧ Wrong rest stuck := by
  refine ⟨stuckBehind_of_cut, ?_⟩
  rintro ⟨rest, ⟨hsplit, hlongest, hne, hunmatched⟩, hwrong⟩
  induction ls generalizing text with
  | nil =>
    obtain ⟨c, input, rfl⟩ := List.exists_cons_of_ne_nil hne
    obtain ⟨stuck', hf⟩ := exists_first_error_iff.mpr hunmatched
    rw [hsplit, texts_nil, List.nil_append, cut_cons_error hf, (wrong_of_first hf).unique hwrong]
  | cons l ls ih =>
    obtain ⟨hfirst, hlater⟩ := hlongest
    obtain ⟨c, cs, hc⟩ := List.exists_cons_of_ne_nil (spelled_ne_nil hfirst.spelled)
    have hf : first c (cs ++ (texts ls ++ rest)) = .ok (l, texts ls ++ rest) :=
      first_eq_ok_iff.mpr ⟨by rw [hc, List.cons_append], hfirst⟩
    have htext : text = c :: (cs ++ (texts ls ++ rest)) := by
      rw [hsplit, texts_cons, hc, List.append_assoc, List.cons_append]
    rw [htext, cut_cons_ok hf, ih rfl hlater]

/-- There is one place where the cut of a text is stuck. -/
theorem StuckBehind.unique {source : List Char} {ls ls' : List Lexeme} {rest rest' : List Char}
    (h : StuckBehind source ls rest) (h' : StuckBehind source ls' rest') :
    ls' = ls ∧ rest' = rest := by
  obtain ⟨stuck, hwrong⟩ := exists_wrong h.rest_ne_nil h.unmatched
  obtain ⟨stuck', hwrong'⟩ := exists_wrong h'.rest_ne_nil h'.unmatched
  have hcut := cut_eq_some_iff.mpr ⟨rest, h, hwrong⟩
  rw [cut_eq_some_iff.mpr ⟨rest', h', hwrong'⟩] at hcut
  have hls : ls' = ls := (Prod.mk.inj hcut).1
  have hsplit := h'.split
  rw [h.split, hls] at hsplit
  exact ⟨hls, (List.append_cancel_left hsplit).symm⟩

end Lexeme

/-! ### Scans that fail -/

theorem Stuck.covers_error {source : List Char} {ls : List Lexeme} {stuck : Stuck}
    (h : Lexeme.cut source = (ls, some stuck)) :
    (stuck.error (Position.start.after (Lexeme.texts ls))).span.Covers source stuck.text := by
  obtain ⟨rest, hrest⟩ := Lexeme.exists_append_of_cut h
  refine ⟨Lexeme.texts ls ++ stuck.skipped, rest, ?_, ?_⟩
  · rw [hrest]
    simp only [List.append_assoc]
  · simp only [Stuck.error, Position.after_append]

namespace Scan

open Lexeme

theorem ofText_of_stuckBehind {source : String} {ls : List Lexeme} {rest : List Char}
    {stuck : Stuck} (h : StuckBehind source.toList ls rest) (hw : Wrong rest stuck) :
    ofText source = .error (stuck.error (Position.start.after (texts ls))) := by
  unfold ofText
  rw [cut_eq_some_iff.mpr ⟨rest, h, hw⟩]

theorem exists_stuckBehind {source : String} {e : LexError} (h : ofText source = .error e) :
    ∃ ls rest, StuckBehind source.toList ls rest := by
  unfold ofText at h
  rcases hc : cut source.toList with ⟨ls, _ | stuck⟩
  · rw [hc] at h
    cases h
  · obtain ⟨rest, hstuck, -⟩ := stuckBehind_of_cut hc
    exact ⟨ls, rest, hstuck⟩

theorem ofText_texts {source : List Char} {ls : List Lexeme} {rest : List Char}
    (h : StuckBehind source ls rest) : ofText (String.ofList (texts ls)) = .ok (ofLexemes ls) := by
  refine ofText_eq_ok_iff.mpr ⟨ls, ?_, rfl⟩
  rw [String.toList_ofList]
  exact h.longest.longestCut

/-- **A scan fails exactly where the cut by longest match is stuck, and tells what is wrong.** There
is one such place, the text before it can be scanned, and what follows it decides about the error.
The error shows the offending characters and where they stand. -/
theorem ofText_stuck (source : String) :
    ((∃ e, ofText source = .error e) ↔ ∃ ls rest, StuckBehind source.toList ls rest) ∧
    ∀ ls rest, StuckBehind source.toList ls rest →
      (∀ ls' rest', StuckBehind source.toList ls' rest' → ls' = ls ∧ rest' = rest) ∧
      ofText (String.ofList (texts ls)) = .ok (ofLexemes ls) ∧
      ∃ e stuck, ofText source = .error e ∧ (∀ stuck', Wrong rest stuck' ↔ stuck' = stuck) ∧
        e.fault = stuck.fault ∧ e.text = String.ofList stuck.text ∧
        e.span.start = (String.ofList (texts ls ++ stuck.skipped)).utf8ByteSize ∧
        e.span.stop = e.span.start + e.text.utf8ByteSize ∧
        e.span.slice? source = some e.text := by
  refine ⟨⟨?_, ?_⟩, fun ls rest h => ⟨fun ls' rest' h' => h.unique h', ofText_texts h, ?_⟩⟩
  · rintro ⟨e, he⟩
    exact exists_stuckBehind he
  · rintro ⟨ls, rest, h⟩
    obtain ⟨stuck, hw⟩ := exists_wrong h.rest_ne_nil h.unmatched
    exact ⟨_, ofText_of_stuckBehind h hw⟩
  · obtain ⟨stuck, hw⟩ := exists_wrong h.rest_ne_nil h.unmatched
    have hcovers := Stuck.covers_error (cut_eq_some_iff.mpr ⟨rest, h, hw⟩)
    have hzero : Position.start.offset = 0 := rfl
    refine ⟨_, stuck, ofText_of_stuckBehind h hw, fun stuck' => ?_, rfl, rfl, ?_, ?_,
      Span.slice?_of_covers hcovers⟩
    · constructor
      · intro hw'
        exact hw'.unique hw
      · rintro rfl
        exact hw
    · show ((Position.start.after (texts ls)).after stuck.skipped).offset = _
      rw [← Position.after_append, Position.offset_after, hzero]
      omega
    · exact Position.offset_after _ stuck.text

/-- Behind a word and a blank, a quote with a letter of two bytes, a backslash and a line feed. -/
theorem ofText_stuck_escape :
    let source := "x \"é\\\n"
    let error : LexError := ⟨.invalidEscape, "\\\n", ⟨5, 7, 1, 5⟩⟩
    ofText source = .error error ∧ error.span.slice? source = some "\\\n" ∧
      ∃ ls rest, StuckBehind source.toList ls rest ∧
        ∀ stuck, Wrong rest stuck → stuck.fault = .invalidEscape := by
  intro source error
  have hscan : ofText source = .error error := by decide +kernel
  obtain ⟨hiff, hstuck⟩ := ofText_stuck source
  obtain ⟨ls, rest, h⟩ := hiff.mp ⟨error, hscan⟩
  obtain ⟨-, -, e, stuck, he, hwrong, hfault, -, -, -, hslice⟩ := hstuck ls rest h
  obtain rfl : error = e := Except.error.inj (hscan.symm.trans he)
  refine ⟨hscan, hslice, ls, rest, h, fun stuck' hw => ?_⟩
  rw [(hwrong stuck').mp hw, ← hfault]

end Scan

end Idl
