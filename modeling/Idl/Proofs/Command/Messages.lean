import Idl.Command
import Idl.Proofs.Draft.Origins
import Idl.Proofs.Layout.Braced
import Idl.Proofs.Lexeme.Stuck
import Idl.Proofs.Model.Parsed

/-! # Messages on one line

What a message says about a program that was refused stands on one line: names and numbers have no
line feed in them, and a quoted text is shown with its line feeds escaped. Where a text cannot be
cut, the offending characters are shown as they stand. They are all on one line but in one case: a
backslash at the end of a line, in a text that is open there, is shown together with the line feed
behind it (`BrokenLine`).

* `ParseError.oneLine_message_iff`: all that can break a message is what was found.
* `parse_error_oneLine`: the error of a parse stays on its line.
* `Lexeme.mem_text_iff`: which faults show a line feed.
* `message_oneLine_iff`: the texts whose error has a message on one line. -/

namespace Idl

/-- A text without a line feed. -/
def OneLine (text : String) : Prop := '\n' ∉ text.toList

instance (text : String) : Decidable (OneLine text) :=
  inferInstanceAs (Decidable ('\n' ∉ text.toList))

@[simp] theorem oneLine_append {a b : String} : OneLine (a ++ b) ↔ OneLine a ∧ OneLine b := by
  simp [OneLine]

/-! ### Texts that are shown -/

theorem newline_not_mem_toDigits (n : Nat) : '\n' ∉ Nat.toDigits 16 n := by
  have hdigit : ∀ d < 16, '\n' ≠ Nat.digitChar d := by decide
  induction n using Nat.strongRecOn with
  | ind n ih =>
    by_cases hn : n < 16
    · rw [Nat.toDigits_of_lt_base hn, List.mem_singleton]
      exact hdigit n hn
    · rw [Nat.toDigits_of_base_le (by decide) (by omega), List.mem_append, List.mem_singleton]
      rintro (hm | hm)
      · exact ih (n / 16) (by omega) hm
      · exact hdigit _ (Nat.mod_lt n (by decide)) hm

theorem Text.newline_not_mem_showChar (c : Char) : '\n' ∉ showChar c := by
  unfold showChar
  split
  · next e he =>
    have hletter : ∀ pair ∈ Quoted.escapes, '\n' ≠ pair.2 := by decide
    have hne := hletter _ (Quoted.mem_of_letter? he)
    simpa using hne
  · next hc =>
    obtain ⟨-, -, hn, -⟩ := Quoted.letter?_eq_none_iff.mp hc
    split
    · simp [codePoint, newline_not_mem_toDigits]
    · simpa using hn.symm

/-- **A text is shown on one line**, whatever is in it. -/
theorem Text.oneLine_shown (value : String) : OneLine (shown value) := by
  have hquote : OneLine "\"" := by decide
  have hbody : OneLine (String.ofList (value.toList.flatMap showChar)) := by
    simp only [OneLine, String.toList_ofList, List.mem_flatMap, not_exists, not_and]
    exact fun c _ => newline_not_mem_showChar c
  unfold shown
  exact oneLine_append.mpr ⟨oneLine_append.mpr ⟨hquote, hbody⟩, hquote⟩

theorem IsName.oneLine {name : String} (h : IsName name) : OneLine name := (solid_word h.1).line

theorem IsName.oneLine_quoted {name : String} (h : IsName name) {words : String}
    (hw : OneLine words) : OneLine (words ++ name ++ "'") := by
  have hquote : OneLine "'" := by decide
  exact oneLine_append.mpr ⟨oneLine_append.mpr ⟨hw, h.oneLine⟩, hquote⟩

/-- **A token of a text is named on one line.** -/
theorem TokenKind.oneLine_text {kind : TokenKind} (h : kind.Spellable) : OneLine kind.text := by
  cases kind with
  | keyword word => cases word <;> decide
  | punctuation mark => cases mark <;> decide
  | identifier name => exact IsName.oneLine_quoted h (by decide)
  | string value =>
    have hwords : OneLine "string literal " := by decide
    exact oneLine_append.mpr ⟨hwords, Text.oneLine_shown value⟩
  | number spelling =>
    have hwords : OneLine "number '" := by decide
    have hquote : OneLine "'" := by decide
    have hspelling : OneLine spelling := (solid_number h).line
    exact oneLine_append.mpr ⟨oneLine_append.mpr ⟨hwords, hspelling⟩, hquote⟩
  | endOfInput => decide

/-! ### Errors of a parse -/

namespace ParseError

theorem oneLine_title (e : ParseError) : OneLine e.title := by
  cases e with
  | duplicateName what => cases what <;> dsimp only [title, Declared.text] <;> decide +kernel
  | _ => dsimp only [title]; decide +kernel

theorem oneLine_expected (e : ParseError) : OneLine e.expected := by
  cases e with
  | unexpectedToken expected =>
    cases expected <;> dsimp only [ParseError.expected, Expected.text] <;> decide +kernel
  | duplicateName what => cases what <;> dsimp only [expected, Declared.text] <;> decide +kernel
  | _ => dsimp only [expected]; decide +kernel

/-- **All that can break a message is what was found.** -/
theorem oneLine_message_iff (e : ParseError) : OneLine e.message ↔ OneLine e.found := by
  have hbehind : OneLine ": expected " := by decide
  have hbefore : OneLine ", found " := by decide
  simp only [message, oneLine_append, e.oneLine_title, e.oneLine_expected, hbehind, hbefore,
    true_and]

theorem oneLine_duplicate (what : Declared) {name : String} (h : IsName name) (span first : Span) :
    OneLine (duplicateName what name span first).found := by
  have hwhat : OneLine (what.text ++ " '") := by cases what <;> decide
  exact h.oneLine_quoted hwhat

end ParseError

theorem Draft.oneLine_refusal {d : Draft} {us : List Token} {t : Token} (hr : Reads d us)
    (hspell : ∀ u ∈ us ++ [t], u.kind.Spellable) : OneLine (d.refusal t).found := by
  have htoken : OneLine t.kind.text := TokenKind.oneLine_text (hspell t (by simp))
  rcases refusal_cases d t with ⟨_, _, _, _, _, he⟩ | ⟨_, _, he⟩ |
    ⟨body, heading, m, name, span, rfl, -, -, he⟩ | ⟨_, he⟩
  · rwa [he]
  · rwa [he]
  · rw [he]
    cases hr with
    | @memberName ts vs word _ _ _ hs hm hn =>
      have hname : IsName name := Token.isName_of_kind (hspell word (by simp)) hn
      exact hname.oneLine_quoted (by decide)
  · rwa [he]

theorem Repeats.oneLine_found {ts : List Token} {e : ParseError} (h : Repeats ts e)
    (hspell : ∀ u ∈ ts, u.kind.Spellable) : OneLine e.found := by
  cases h with
  | ofAttribute hs ha hf =>
    have hgood := ha.wellFormed (List.forall_mem_append.mp hspell).2
    exact ParseError.oneLine_duplicate _ hgood.name _ _
  | ofInterface hs hi hf =>
    have hgood := hi.wellFormed (List.forall_mem_append.mp hspell).2
    exact ParseError.oneLine_duplicate _ hgood.name _ _
  | ofModule hp hm hf =>
    have hgood := hm.wellFormed (List.forall_mem_append.mp hspell).2
    exact ParseError.oneLine_duplicate _ hgood.name _ _

/-- **The error of a parse stays on its line.** -/
theorem parse_error_oneLine {source : String} {scan : Scan} {e : ParseError}
    (hs : Scan.ofText source = .ok scan) (h : parse scan.tokens = .error e) :
    OneLine e.message := by
  obtain ⟨us, t, vs, d, hsplit, hrun, hcase⟩ := Draft.exists_of_read_error h
  have hfront := (Token.closed_isPrefix (Scan.exists_end hs)).sublist
  have hspell : ∀ u ∈ us ++ [t], u.kind.Spellable := by
    intro u hu
    refine Scan.spellable_of_mem hs u (hfront.mem ?_)
    rw [hsplit]
    have hmem : u ∈ (us ++ [t]) ++ vs := List.mem_append_left vs hu
    simpa using hmem
  have hreads := Draft.reads_of_run hrun
  rw [ParseError.oneLine_message_iff]
  rcases hcase with hclash | ⟨-, rfl⟩
  · exact (Draft.repeats_of_clash hreads hclash).oneLine_found hspell
  · exact Draft.oneLine_refusal hreads hspell

/-! ### Errors of a cut -/

namespace Lexeme

/-- A line feed is a blank, so no cut is stuck at one. -/
theorem ne_newline_of_unmatched {c : Char} {rest : List Char} (h : Unmatched (c :: rest)) :
    c ≠ '\n' := by
  rintro rfl
  exact h .blank ['\n'] (.blank (by decide)) ⟨rest, rfl⟩

/-- **A fault shows a line feed only behind a backslash.** -/
theorem mem_text_iff {rest : List Char} {stuck : Stuck} (hu : Unmatched rest)
    (hw : Wrong rest stuck) : '\n' ∈ stuck.text ↔
      ∃ input before, rest = '"' :: input ∧ BadEscape input before '\n' := by
  cases hw with
  | @badEscape input before e hbad =>
    constructor
    · intro hm
      obtain rfl : e = '\n' := by simpa [eq_comm] using hm
      exact ⟨input, before, rfl, hbad⟩
    · rintro ⟨input', before', hrest, hbad'⟩
      cases hrest
      have hread := read_of_badEscape hbad
      rw [read_of_badEscape hbad'] at hread
      cases hread
      simp
  | @unclosed input hclosed =>
    constructor
    · intro hm
      rcases List.mem_cons.mp hm with hq | hm
      · exact absurd hq (by decide)
      · exact absurd rfl (of_decide_eq_true (of_mem_takeWhile hm))
    · rintro ⟨input', before', hrest, hbad'⟩
      cases hrest
      exact absurd hbad' (hclosed _ _)
  | sign =>
    constructor
    · intro hm
      exact absurd hm (by decide)
    · rintro ⟨_, _, hrest, -⟩
      cases hrest
  | comment =>
    constructor
    · intro hm
      exact absurd hm (by decide)
    · rintro ⟨_, _, hrest, -⟩
      cases hrest
  | @character c input hq hs hc =>
    constructor
    · intro hm
      exact absurd (List.mem_singleton.mp hm).symm (ne_newline_of_unmatched hu)
    · rintro ⟨_, _, hrest, -⟩
      cases hrest
      exact absurd rfl hq

end Lexeme

open Lexeme in
/-- **A line that breaks off behind a backslash:** the cut is stuck in a quoted text, where the line
feed stands for the letter of an escape. -/
def BrokenLine (source : String) : Prop :=
  ∃ ls input before, StuckBehind source.toList ls ('"' :: input) ∧ BadEscape input before '\n'

/-- A line that breaks off is the reason why its text cannot be cut. -/
theorem BrokenLine.ofText {source : String} (h : BrokenLine source) :
    ∃ span, Scan.ofText source = .error ⟨.invalidEscape, "\\\n", span⟩ := by
  obtain ⟨ls, input, before, hstuck, hbad⟩ := h
  exact ⟨_, Scan.ofText_of_stuckBehind hstuck (.badEscape hbad)⟩

theorem LexError.oneLine_message_iff (e : LexError) : OneLine e.message ↔ OneLine e.text := by
  have hfault : OneLine e.fault.text := by cases e.fault <;> decide
  have hopen : OneLine " '" := by decide
  have hclose : OneLine "'" := by decide
  simp only [message, oneLine_append, hfault, hopen, hclose, true_and, and_true]

theorem lex_error_oneLine_iff {source : String} {e : LexError} (h : Scan.ofText source = .error e) :
    OneLine e.message ↔ ¬ BrokenLine source := by
  obtain ⟨ls, rest, hstuck⟩ := Scan.exists_stuckBehind h
  obtain ⟨stuck, hw⟩ := Lexeme.exists_wrong hstuck.rest_ne_nil hstuck.unmatched
  rw [Scan.ofText_of_stuckBehind hstuck hw] at h
  cases h
  have htext : OneLine (String.ofList stuck.text) ↔ '\n' ∉ stuck.text := by simp [OneLine]
  rw [LexError.oneLine_message_iff]
  refine htext.trans (not_congr ((Lexeme.mem_text_iff hstuck.unmatched hw).trans ⟨?_, ?_⟩))
  · rintro ⟨input, before, rfl, hbad⟩
    exact ⟨ls, input, before, hstuck, hbad⟩
  · rintro ⟨ls', input, before, hstuck', hbad⟩
    obtain ⟨-, rfl⟩ := hstuck'.unique hstuck
    exact ⟨input, before, rfl, hbad⟩

/-! ### Errors of a text -/

/-- **A text that is no program has an error with a message on one line, unless a line of it breaks
off behind a backslash.** The message of a file is on one line in the same cases, if the path is. A
line that breaks off is shown as an escape that has the line feed in it. -/
theorem message_oneLine_iff {source : String} {error : SyntaxError}
    (h : parseText source = .error error) :
    (OneLine error.diagnostic.message ↔ ¬ BrokenLine source) ∧
      (∀ path, OneLine path →
        (OneLine (FileError.malformed path source error).message ↔ ¬ BrokenLine source)) ∧
      (BrokenLine source → ∃ span, error = .lex ⟨.invalidEscape, "\\\n", span⟩) := by
  have hmessage : OneLine error.diagnostic.message ↔ ¬ BrokenLine source := by
    obtain ⟨e, rfl, hs⟩ | ⟨scan, e, rfl, hs, hp⟩ := parseText_error_cases h
    · exact lex_error_oneLine_iff hs
    · refine iff_of_true (parse_error_oneLine hs hp) fun hbroken => ?_
      obtain ⟨span, herror⟩ := hbroken.ofText
      rw [hs] at herror
      cases herror
  refine ⟨hmessage, fun path hpath => ?_, fun hbroken => ?_⟩
  · have hcolon : OneLine ": " := by decide
    simp only [FileError.message, oneLine_append, hpath, hcolon, true_and, hmessage]
  · obtain ⟨span, herror⟩ := hbroken.ofText
    rw [parseText, herror] at h
    cases h
    exact ⟨span, rfl⟩

/-- A quoted text with a line feed in its value is found where a module should start. -/
theorem message_oneLine_quoted :
    let source := "\"a\\nb\""
    let error : SyntaxError := .parse (.trailingInput ⟨.string "a\nb", ⟨0, 6, 1, 1⟩⟩)
    parseText source = .error error ∧ OneLine error.diagnostic.message ∧ ¬ BrokenLine source ∧
      OneLine (FileError.malformed "a.gidl" source error).message := by
  intro source error
  have hparse : parseText source = .error error := by decide +kernel
  obtain ⟨hmessage, hfile, -⟩ := message_oneLine_iff hparse
  have hline : OneLine error.diagnostic.message := by decide +kernel
  have hbroken := hmessage.mp hline
  exact ⟨hparse, hline, hbroken, (hfile "a.gidl" (by decide)).mpr hbroken⟩

/-- A line that breaks off right behind its opening quote and a backslash: the message goes on in a
second line. -/
theorem message_broken :
    let source := "\"\\\n"
    let error : SyntaxError := .lex ⟨.invalidEscape, "\\\n", ⟨1, 3, 1, 2⟩⟩
    parseText source = .error error ∧
      error.diagnostic.message = "invalid escape sequence '\\\n'" ∧
      ¬ OneLine error.diagnostic.message ∧ OneLine "a.gidl" ∧
      ¬ OneLine (FileError.malformed "a.gidl" source error).message := by
  decide +kernel

end Idl
