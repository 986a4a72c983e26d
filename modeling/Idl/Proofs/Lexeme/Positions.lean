import Idl.Proofs.Lexeme.Concatenation
import Mathlib.Data.List.DropRight

/-! # Where lexemes stand

Lines and columns are counted on the way, one character after the other. A span is *faithful* to a
text if they are what one finds by looking at the text: the bytes before the span end at a
character, the line is one more than the line feeds among them, and the column is one more than the
characters behind the last of these (`Span.Faithful`). Counting on the way comes to the same,
because a walk over some characters passes their bytes, their line feeds and their last line
(`Position.column_after`).

Tokens and comments cover some characters of the text, and so does what a cut is stuck at, behind
the lexemes that were cut before (`Lexeme.exists_append_of_cut`).

* `Span.faithful_between`, `Span.Faithful.merge`: which spans are faithful.
* `Scan.faithful_tokens`, `Scan.faithful_comments`, `Scan.faithful_error`: those of a scan are.
* `Scan.pairwise_tokens`: tokens stand one behind the other. -/

namespace Idl

theorem Position.column_after (text : List Char) :
    (start.after text).column = 1 + (text.rtakeWhile (· ≠ '\n')).length := by
  induction text using List.reverseRecOn with
  | nil => rfl
  | append_singleton text c ih =>
    rw [after_append, after_cons, after_nil, List.rtakeWhile_concat]
    by_cases hc : c = '\n'
    · simp [next, hc]
    · simp [next, hc, ih]
      omega

/-! ### Faithful spans -/

/-- **A span that tells where it stands in a text.** It starts and ends between characters, and its
line and column are counted from the characters before it. -/
structure Span.Faithful (source : String) (s : Span) : Prop where
  start_le_stop : s.start ≤ s.stop
  stop_le : s.stop ≤ source.utf8ByteSize
  start : ∃ before, before <+: source.toList ∧ s.start = (String.ofList before).utf8ByteSize ∧
    s.line = 1 + before.count '\n' ∧ s.column = 1 + (before.rtakeWhile (· ≠ '\n')).length
  stop : ∃ upto, upto <+: source.toList ∧ s.stop = (String.ofList upto).utf8ByteSize

namespace Span

/-- **The span of some characters of a text is faithful.** -/
theorem faithful_between {source : String} {before text : List Char}
    (h : before ++ text <+: source.toList) :
    (between (Position.start.after before) (Position.start.after (before ++ text))).Faithful
      source := by
  have hzero : Position.start.offset = 0 := rfl
  have hoffset : ∀ chars, (Position.start.after chars).offset =
      (String.ofList chars).utf8ByteSize := by
    intro chars
    rw [Position.offset_after, hzero]
    omega
  refine ⟨?_, ?_, ⟨before, (List.prefix_append _ _).trans h, hoffset _, ?_, ?_⟩,
    ⟨before ++ text, h, hoffset _⟩⟩
  · rw [Position.after_append]
    exact Position.offset_le_after _ text
  · obtain ⟨behind, hsource⟩ := h
    have hall := hoffset source.toList
    rw [String.ofList_toList] at hall
    rw [← hall, ← hsource, Position.after_append _ (before ++ text)]
    exact Position.offset_le_after _ behind
  · exact Position.line_after _ before
  · exact Position.column_after before

theorem faithful_of_covers {source : String} {s : Span} {text : List Char}
    (h : s.Covers source.toList text) : s.Faithful source := by
  obtain ⟨before, behind, hsource, rfl⟩ := h
  exact faithful_between ⟨behind, hsource.symm⟩

theorem Faithful.merge {source : String} {a b : Span} (ha : a.Faithful source)
    (hb : b.Faithful source) (h : a.stop ≤ b.start) : (a.merge b).Faithful source := by
  have hab := ha.start_le_stop
  have hbb := hb.start_le_stop
  rw [merge_of_le (by omega) (by omega)]
  refine ⟨?_, hb.stop_le, ha.start, hb.stop⟩
  show a.start ≤ b.stop
  omega

end Span

/-! ### What a cut is stuck at -/

namespace Text.Quoted

/-- The characters that a reading has looked at, up to the fault if there is one. -/
def Reading.seen : Reading → List Char
  | closed text _ _ => text
  | unclosed text => text
  | badEscape before e => before ++ ['\\', e]

theorem Reading.seen_push (text : List Char) (c : Char) (r : Reading) :
    (r.push text c).seen = text ++ r.seen := by
  rcases r with ⟨text', value, rest⟩ | text' | ⟨before, e⟩
  · rfl
  · rfl
  · exact List.append_assoc text before _

/-- **What a reading has looked at is the front of its input.** -/
theorem exists_append_seen (input : List Char) : ∃ rest, input = (read input).seen ++ rest := by
  fun_induction read input with
  | case1 => exact ⟨[], rfl⟩
  | case2 rest => exact ⟨rest, rfl⟩
  | case3 rest => exact ⟨_, rfl⟩
  | case4 => exact ⟨[], rfl⟩
  | case5 e tail _ _ c _ ih =>
    obtain ⟨rest, hrest⟩ := ih
    rw [Reading.seen_push]
    exact ⟨rest, congrArg (fun cs => '\\' :: e :: cs) hrest⟩
  | case6 e tail => exact ⟨tail, rfl⟩
  | case7 c tail _ _ _ ih =>
    obtain ⟨rest, hrest⟩ := ih
    rw [Reading.seen_push]
    exact ⟨rest, congrArg (c :: ·) hrest⟩

end Text.Quoted

namespace Lexeme

theorem exists_append_of_first {c : Char} {input : List Char} {stuck : Stuck}
    (h : first c input = .error stuck) :
    ∃ rest, c :: input = stuck.skipped ++ stuck.text ++ rest := by
  unfold first at h
  split_ifs at h with hblank hslash hquote hminus
  · -- A slash: it is all that is shown, unless a comment is open.
    subst hslash
    unfold comment at h
    split at h
    · cases h
    · split at h
      · cases h
      · cases h
        exact ⟨_, rfl⟩
    · cases h
      exact ⟨input, rfl⟩
  · -- A quote: what was read so far is shown, or only the escape behind it.
    subst hquote
    obtain ⟨rest, hrest⟩ := Text.Quoted.exists_append_seen input
    unfold string at h
    rcases hr : Text.Quoted.read input with _ | text | ⟨before, e⟩
    · rw [hr] at h
      cases h
    · rw [hr] at h hrest
      cases h
      exact ⟨rest, congrArg ('"' :: ·) hrest⟩
    · rw [hr] at h hrest
      cases h
      refine ⟨rest, ?_⟩
      rw [List.cons_append]
      exact congrArg ('"' :: ·) hrest
  · subst hminus
    unfold signed at h
    split_ifs at h
    cases h
    exact ⟨input, rfl⟩
  · unfold mark at h
    split at h
    · cases h
    · cases h
      exact ⟨input, rfl⟩

/-- **A cut that is stuck** has cut the front of the text, and is stuck at what follows. -/
theorem exists_append_of_cut {text : List Char} {ls : List Lexeme} {stuck : Stuck}
    (h : cut text = (ls, some stuck)) :
    ∃ rest, text = texts ls ++ (stuck.skipped ++ stuck.text) ++ rest := by
  induction hn : text.length using Nat.strongRecOn generalizing text ls with
  | ind n ih =>
    rcases text with _ | ⟨c, input⟩
    · rw [cut_nil] at h
      cases h
    · rcases hf : first c input with stuck' | ⟨l, rest⟩
      · rw [cut_cons_error hf] at h
        cases h
        obtain ⟨rest, hrest⟩ := exists_append_of_first hf
        exact ⟨rest, hrest⟩
      · rw [cut_cons_ok hf] at h
        have hlt : rest.length < n := hn ▸ length_lt_of_first hf
        obtain ⟨rfl, hstuck⟩ := Prod.mk.inj h
        have hcut : cut rest = ((cut rest).1, some stuck) := by rw [← hstuck]
        obtain ⟨behind, hbehind⟩ := ih _ hlt hcut rfl
        refine ⟨behind, ?_⟩
        rw [(eq_append_of_first hf).1, texts_cons]
        simp only [List.append_assoc] at hbehind ⊢
        rw [← hbehind]

end Lexeme

/-! ### Scans -/

namespace Scan

/-- **An error of the cut is shown where it stands.** -/
theorem faithful_error {source : String} {e : LexError} (h : ofText source = .error e) :
    e.span.Faithful source := by
  unfold ofText at h
  rcases hc : Lexeme.cut source.toList with ⟨ls, _ | stuck⟩
  · rw [hc] at h
    cases h
  · rw [hc] at h
    cases h
    obtain ⟨rest, hrest⟩ := Lexeme.exists_append_of_cut hc
    have hfront : Lexeme.texts ls ++ stuck.skipped ++ stuck.text <+: source.toList :=
      ⟨rest, by rw [hrest, List.append_assoc (Lexeme.texts ls)]⟩
    have hspan := Span.faithful_between hfront
    simp only [Position.after_append] at hspan
    exact hspan

section Faithful
variable {source : String} {scan : Scan} (h : ofText source = .ok scan)
include h

theorem faithful_tokens : ∀ t ∈ scan.tokens, t.span.Faithful source := by
  obtain ⟨ls, hl, rfl⟩ := ofText_eq_ok_iff.mp h
  have hcut := (holds_of_longestCut hl).tokens
  rw [tokens_ofLexemes, List.dropLast_concat] at hcut
  rw [tokens_ofLexemes, List.forall_mem_append, List.forall_mem_singleton, hl.texts_eq]
  refine ⟨fun t ht => ?_, ?_⟩
  · obtain ⟨text, hcovers, -⟩ := hcut t ht
    exact Span.faithful_of_covers hcovers
  · have hend : source.toList ++ [] <+: source.toList := ⟨[], by simp⟩
    have hspan := Span.faithful_between hend
    rw [List.append_nil] at hspan
    exact hspan

theorem faithful_comments : ∀ span ∈ scan.comments, span.Faithful source := by
  obtain ⟨ls, hl, rfl⟩ := ofText_eq_ok_iff.mp h
  intro span hspan
  obtain ⟨text, hcovers, -⟩ := (holds_of_longestCut hl).comments span hspan
  exact Span.faithful_of_covers hcovers

theorem pairwise_tokens : scan.tokens.Pairwise fun t u => t.span.stop ≤ u.span.start := by
  have hfaithful := faithful_tokens h
  obtain ⟨ls, hl, rfl⟩ := ofText_eq_ok_iff.mp h
  rw [tokens_ofLexemes] at hfaithful ⊢
  refine List.pairwise_append.mpr ⟨?_, List.pairwise_singleton _ _, fun t ht u hu => ?_⟩
  · refine List.Pairwise.filterMap siteToken? ?_ (Lexeme.pairwise_sited .start ls)
    intro x y hxy t ht u hu
    rw [(siteToken?_eq_some ht).2, (siteToken?_eq_some hu).2]
    exact hxy
  · obtain rfl := List.mem_singleton.mp hu
    have hstop := (hfaithful t (List.mem_append_left _ ht)).stop_le
    have hend := Position.offset_after .start source.toList
    rw [String.ofList_toList] at hend
    show t.span.stop ≤ (Position.start.after (Lexeme.texts ls)).offset
    rw [hl.texts_eq, hend]
    omega

end Faithful

end Scan

end Idl
