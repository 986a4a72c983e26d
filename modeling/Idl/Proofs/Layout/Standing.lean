import Idl.Proofs.Layout.Braced
import Idl.Proofs.Lexeme.Concatenation

/-! # Where the tokens of a layout stand

A text that yields its tokens whatever follows has them wherever it stands (`Scan.tokensAt`). So the
tokens of a layout are those of its lines, and each line has its own: they all stand on it, the
first of them behind the indentation. What the braces of a line say about its depth is then said by
the tokens (`Row`), line by line (`Stands`).

* `Scan.tokensAt_append`: the tokens of one text behind another.
* `Scan.exists_row`: the tokens of one line.
* `Layout.stands_of_laid`: the tokens of lines that are laid out by their braces. -/

namespace Idl

open Lexeme

namespace Position

theorem column_after_of_line {text : List Char} (h : '\n' ∉ text) (p : Position) :
    (p.after text).column = p.column + text.length := by
  induction text generalizing p with
  | nil => rfl
  | cons c text ih =>
    have hc : c ≠ '\n' := fun he => h (by simp [he])
    have htext : '\n' ∉ text := fun hm => h (by simp [hm])
    rw [after_cons, ih htext, next, if_neg hc, List.length_cons]
    show p.column + 1 + text.length = p.column + (text.length + 1)
    omega

theorem line_after_of_line {text : List Char} (h : '\n' ∉ text) (p : Position) :
    (p.after text).line = p.line := by
  rw [line_after, List.count_eq_zero.mpr h]
  rfl

/-- Behind a line feed a line starts. -/
theorem column_after_lineFeed (p : Position) (text : List Char) :
    (p.after (text ++ ['\n'])).column = 1 := by
  rw [after_append, after_cons, after_nil, next, if_pos rfl]

theorem column_after_lineFeeds {p : Position} (hp : p.column = 1) (k : Nat) :
    (p.after (List.replicate k '\n')).column = 1 := by
  cases k with
  | zero => exact hp
  | succ k => rw [List.replicate_succ', column_after_lineFeed]

end Position

namespace Scan

/-- **The tokens of a text that stands at a position.** -/
def tokensAt (p : Position) (text : List Char) : List Token :=
  (placed p (cut text).1).filterMap token?

@[simp] theorem tokensAt_nil (p : Position) : tokensAt p [] = [] := by
  rw [tokensAt, cut_nil]
  rfl

theorem tokens_eq_tokensAt {source : String} {scan : Scan} (h : ofText source = .ok scan) :
    scan.tokens.dropLast = tokensAt .start source.toList := by
  obtain ⟨ls, hl, rfl⟩ := ofText_eq_ok_iff.mp h
  rw [ofLexemes, List.dropLast_concat, tokensAt, cut_eq_iff.mpr hl]

section Yields
variable {text : List Char} {kinds : List TokenKind} (h : Yields text kinds)
include h

theorem kinds_tokensAt (p : Position) : (tokensAt p text).map Token.kind = kinds := by
  obtain ⟨ls, hv, hc⟩ := h
  have hcut : cut text = (ls, none) := by simpa using hc []
  rw [tokensAt, hcut]
  exact (kinds_placed hv p).1

/-- The tokens of a text, and behind it those of what follows. -/
theorem tokensAt_append (p : Position) (rest : List Char) :
    tokensAt p (text ++ rest) = tokensAt p text ++ tokensAt (p.after text) rest := by
  obtain ⟨ls, -, hc⟩ := h
  have hcut : cut text = (ls, none) := by simpa using hc []
  have htexts : texts ls = text := (cut_eq_iff.mp hcut).texts_eq
  rw [tokensAt, hc rest, placed_append, List.filterMap_append, htexts, tokensAt, hcut, tokensAt]

end Yields

theorem tokensAt_append_of_blank {text : List Char} (h : Yields text []) (p : Position)
    (rest : List Char) : tokensAt p (text ++ rest) = tokensAt (p.after text) rest := by
  rw [tokensAt_append h, List.map_eq_nil_iff.mp (kinds_tokensAt h p), List.nil_append]

/-! ### The tokens of a line -/

theorem exists_of_mem_placed {p : Position} {ls : List Lexeme} {x : LexemeKind × Span}
    (h : x ∈ placed p ls) :
    ∃ before l behind, ls = before ++ l :: behind ∧ x.1 = l.kind ∧
      x.2 = .between (p.after (texts before)) (p.after (texts before ++ l.text)) := by
  induction ls generalizing p with
  | nil => cases h
  | cons l ls ih =>
    rw [placed_cons] at h
    rcases List.mem_cons.mp h with rfl | h
    · exact ⟨[], l, ls, rfl, rfl, rfl⟩
    · obtain ⟨before, l', behind, rfl, hk, hs⟩ := ih h
      refine ⟨l :: before, l', behind, rfl, hk, ?_⟩
      rw [hs, texts_cons, List.append_assoc, Position.after_append p, Position.after_append p]

/-- All tokens of a line stand on it. -/
theorem line_of_mem_tokensAt {text : List Char} {kinds : List TokenKind} (hline : '\n' ∉ text)
    (h : Yields (text ++ ['\n']) kinds) {p : Position} {t : Token}
    (ht : t ∈ tokensAt p (text ++ ['\n'])) : t.span.line = p.line := by
  obtain ⟨ls, -, hc⟩ := h
  have hcut : cut (text ++ ['\n']) = (ls, none) := by simpa using hc []
  rw [tokensAt, hcut] at ht
  obtain ⟨⟨kind, span⟩, hx, hxt⟩ := List.mem_filterMap.mp ht
  obtain ⟨before, l, behind, rfl, -, hspan⟩ := exists_of_mem_placed hx
  have hlongest := cut_eq_iff.mp hcut
  -- What stands before the token is followed by the token, so it ends before the line feed.
  have hbefore : '\n' ∉ texts before := by
    have hne : l.text ≠ [] := spelled_ne_nil (hlongest.spelled l (by simp))
    have htexts : texts before ++ (l.text ++ texts behind) = text ++ ['\n'] := by
      rw [← hlongest.texts_eq, texts_append, texts_cons]
    rcases List.append_eq_append_iff.mp htexts with ⟨more, rfl, -⟩ | ⟨more, hmore, hrest⟩
    · exact fun hm => hline (List.mem_append_left _ hm)
    · cases more with
      | nil =>
        rw [List.append_nil] at hmore
        rwa [hmore]
      | cons d more =>
        have hlength := congrArg List.length hrest
        have hpos := List.length_pos_of_ne_nil hne
        simp only [List.length_cons, List.length_append, List.length_nil] at hlength
        omega
  have hline' : span.line = p.line := by
    rw [show span = _ from hspan, Span.between, Position.line_after_of_line hbefore]
  cases kind with
  | token kind =>
    cases hxt
    exact hline'
  | _ => cases hxt

/-- The first token of a text that does not begin in a blank stands where the text does. -/
theorem exists_head_tokensAt {c : Char} {cs : List Char} {first : TokenKind}
    {later : List TokenKind} (h : Yields (c :: cs) (first :: later)) (hc : isBlank c = false)
    (p : Position) :
    ∃ t ts, tokensAt p (c :: cs) = t :: ts ∧ t.span.line = p.line ∧ t.span.column = p.column := by
  obtain ⟨ls, hv, hcuts⟩ := h
  have hcut : cut (c :: cs) = (ls, none) := by simpa using hcuts []
  have hlongest := cut_eq_iff.mp hcut
  cases ls with
  | nil => cases hv
  | cons l ls =>
    have hspelled := hlongest.spelled l List.mem_cons_self
    have htexts := hlongest.texts_eq
    have hvisible : isVisible l = true := by
      refine decide_eq_true fun hk => ?_
      rw [hk] at hspelled
      rw [texts_cons] at htexts
      generalize l.text = text at hspelled htexts
      cases hspelled with
      | @blank d hd =>
        rw [List.singleton_append, List.cons.injEq] at htexts
        rw [htexts.1, hc] at hd
        cases hd
    rw [List.filter_cons_of_pos hvisible, List.map_cons, List.map_cons] at hv
    have hkind : l.kind = .token first := (List.cons.inj hv).1
    refine ⟨⟨first, .between p (p.after l.text)⟩, (placed (p.after l.text) ls).filterMap token?, ?_,
      rfl, rfl⟩
    rw [tokensAt, hcut, placed_cons, hkind]
    rfl

end Scan

/-! ### The tokens of lines -/

namespace Layout

/-- **The tokens of a line of some depth where `c` blocks are open**, and behind which `c'` are. -/
structure Row (l : Layout) (n c depth : Nat) (t : Token) (us : List Token) (c' : Nat) : Prop where
  line : ∀ u ∈ t :: us, u.span.line = n
  column : t.span.column = 1 + l.indentWidth * depth
  depth_eq : c = depth + if t.kind = .punctuation .closeBrace then 1 else 0
  braces : c + ((t :: us).map Token.kind).count (.punctuation .openBrace) =
    c' + ((t :: us).map Token.kind).count (.punctuation .closeBrace)
  last : ∀ word, ((t :: us).map Token.kind).getLast? ≠ some (.keyword word)
  closing : .punctuation .closeBrace ∉ ((t :: us).map Token.kind).dropLast

/-- **The tokens of lines that are laid out by their braces**, where the first line has number
`n`. -/
inductive Stands (l : Layout) : Nat → Nat → Bool → List Line → List Token → Prop where
  | nil {n c : Nat} {b : Bool} : Stands l n c b [] []
  | entry {n c c' depth : Nat} {b : Bool} {text : String} {t : Token} {us ts : List Token}
      {lines : List Line} (h : l.Row n c depth t us c')
      (hb : b = true → t.kind = .punctuation .closeBrace)
      (rest : Stands l (n + 1) c' (endsClosed ((t :: us).map Token.kind)) lines ts) :
      Stands l n c b (.entry depth text :: lines) (t :: us ++ ts)
  | apart {n c c' depth : Nat} {text : String} {t : Token} {us ts : List Token}
      {lines : List Line} (h : l.Row (n + l.blankLines) c depth t us c')
      (ht : t.kind ≠ .punctuation .closeBrace)
      (rest : Stands l (n + l.blankLines + 1) c' (endsClosed ((t :: us).map Token.kind)) lines
        ts) :
      Stands l n c true (List.replicate l.blankLines .blank ++ .entry depth text :: lines)
        (t :: us ++ ts)

theorem toList_lineText (l : Layout) (depth : Nat) (text : String) :
    (l.lineText (.entry depth text)).toList =
      List.replicate (depth * l.indentWidth) ' ' ++ (text.toList ++ ['\n']) := by
  simp [lineText]

theorem toList_render_cons (l : Layout) (line : Line) (lines : List Line) :
    (l.render (line :: lines)).toList = (l.lineText line).toList ++ (l.render lines).toList := by
  rw [toList_render, List.flatMap_cons, ← toList_render]

theorem toList_render_blanks (l : Layout) (k : Nat) (lines : List Line) :
    (l.render (List.replicate k .blank ++ lines)).toList =
      List.replicate k '\n' ++ (l.render lines).toList := by
  induction k with
  | zero => rfl
  | succ k ih =>
    have hblank : (l.lineText .blank).toList = ['\n'] := by simp [lineText]
    rw [List.replicate_succ, List.cons_append, toList_render_cons, ih, hblank, List.replicate_succ]
    rfl

/-- The tokens of one line, from its start on. -/
theorem exists_row {l : Layout} {c c' depth : Nat} {text : String} {first : TokenKind}
    {later : List TokenKind} (h : Fits c depth text first later c') {p : Position}
    (hp : p.column = 1) (rest : List Char) :
    ∃ t us q, Scan.tokensAt p ((l.lineText (.entry depth text)).toList ++ rest) =
        t :: us ++ Scan.tokensAt q rest ∧
      q.line = p.line + 1 ∧ q.column = 1 ∧ (t :: us).map Token.kind = first :: later ∧
      l.Row p.line c depth t us c' := by
  let spaces := List.replicate (depth * l.indentWidth) ' '
  have hspaces : Yields spaces [] := by simpa [spaces] using yields_nil.blanks _
  have hnone : '\n' ∉ spaces := by simp [spaces]
  obtain ⟨d, hd, hblank⟩ := h.solid.first
  obtain ⟨ds, hds⟩ : ∃ ds, text.toList = d :: ds := List.head?_eq_some_iff.mp hd
  have hyields := h.yields
  rw [hds, List.cons_append] at hyields
  obtain ⟨t, us, hhead, hline, hcolumn⟩ :=
    Scan.exists_head_tokensAt hyields hblank (p.after spaces)
  rw [← List.cons_append, ← hds] at hhead
  refine ⟨t, us, p.after (spaces ++ (text.toList ++ ['\n'])), ?_, ?_, ?_, ?_, ?_⟩
  · rw [toList_lineText, List.append_assoc, Scan.tokensAt_append_of_blank hspaces,
      Scan.tokensAt_append h.yields, hhead, Position.after_append p]
  · rw [Position.line_after, ← List.append_assoc, List.count_append,
      List.count_eq_zero.mpr (by simp [hnone, h.solid.line])]
    rfl
  · rw [← List.append_assoc, Position.column_after_lineFeed]
  · rw [← hhead, Scan.kinds_tokensAt h.yields]
  · have hkinds : (t :: us).map Token.kind = first :: later := by
      rw [← hhead, Scan.kinds_tokensAt h.yields]
    have hkind : t.kind = first := (List.cons.inj hkinds).1
    exact
      { line := by
          intro u hu
          rw [← hhead] at hu
          rw [Scan.line_of_mem_tokensAt h.solid.line h.yields hu, Position.line_after_of_line hnone]
        column := by
          rw [hcolumn, Position.column_after_of_line hnone, hp, List.length_replicate, Nat.mul_comm]
        depth_eq := by rw [hkind]; exact h.depth_eq
        braces := by rw [hkinds]; exact h.braces
        last := by rw [hkinds]; exact h.last
        closing := by rw [hkinds]; exact h.closing }

/-- **The tokens of lines that are laid out by their braces.** -/
theorem stands_of_laid {l : Layout} {c c' : Nat} {b b' : Bool} {lines : List Line}
    (h : l.Laid c b lines c' b') {p : Position} (hp : p.column = 1) :
    l.Stands p.line c b lines (Scan.tokensAt p (l.render lines).toList) := by
  induction h generalizing p with
  | nil =>
    rw [render_nil, String.toList_empty, Scan.tokensAt_nil]
    exact .nil
  | @entry _ _ _ _ _ _ _ _ _ lines hfits hb _ ih =>
    obtain ⟨t, us, q, htokens, hline, hcolumn, hkinds, hrow⟩ :=
      exists_row (l := l) hfits hp (l.render lines).toList
    have hrest := ih hcolumn
    rw [hline, ← hkinds] at hrest
    rw [toList_render_cons, htokens]
    refine .entry hrow (fun hb' => ?_) hrest
    rw [(List.cons.inj hkinds).1, hb hb']
  | @apart _ _ _ _ _ _ _ _ lines hfits hf _ ih =>
    let blanks := List.replicate l.blankLines '\n'
    have hblanks : Yields blanks [] := by
      have hwrites := l.writes_blanks l.blankLines
      rw [← List.append_nil (List.replicate _ _), Writes, toList_render_blanks] at hwrites
      simpa using hwrites
    have hline' : (p.after blanks).line = p.line + l.blankLines := by
      rw [Position.line_after, List.count_replicate_self]
    obtain ⟨t, us, q, htokens, hline, hcolumn, hkinds, hrow⟩ :=
      exists_row (l := l) hfits (Position.column_after_lineFeeds hp l.blankLines)
        (l.render lines).toList
    have hrest := ih hcolumn
    rw [hline, hline', ← hkinds] at hrest
    rw [hline'] at hrow
    rw [toList_render_blanks, toList_render_cons, Scan.tokensAt_append_of_blank hblanks, htokens]
    refine .apart hrow ?_ hrest
    rwa [(List.cons.inj hkinds).1]

end Layout

end Idl
