import Idl.Proofs.Draft.Landmarks
import Idl.Proofs.Draft.Starts
import Idl.Proofs.Layout.Canonical
import Idl.Proofs.Layout.Standing
import Idl.Text.Lines

/-! # The law of a layout

What can be said about a text that was laid out without looking at how: by its rows, by the tokens
that are scanned from it, and by the program that these are read as. Every row that is not empty is
indented by the braces before it, and empty rows stand between blocks only, always as many as the
layout asks for.

* `Stands.indented`: the first token of every line, and the braces before it.
* `Stands.joined`: no line ends in a keyword.
* `Stands.spaced`: blank lines stand before the tokens behind closing braces.
* `format_lawful`: the law, for every source and every layout. -/

namespace Idl

open Lexeme

namespace Layout

/-- The line at an index is an entry. -/
def EntryAt (lines : List Line) (i : Nat) : Prop :=
  ∃ depth text, lines[i]? = some (.entry depth text)

/-- How many tokens are of a kind. -/
def countKind (kind : TokenKind) (ts : List Token) : Nat := (ts.map Token.kind).count kind

/-- **The first token of every line**, from line `n` on. It stands behind the indentation, and the
braces before it tell its depth. -/
def Indented (l : Layout) (n c : Nat) (lines : List Line) (ts : List Token) : Prop :=
  ∀ i depth text, lines[i]? = some (.entry depth text) →
    ∃ before t behind, ts = before ++ t :: behind ∧ (∀ u ∈ before, u.span.line < n + i) ∧
      t.span.line = n + i ∧ t.span.column = 1 + l.indentWidth * depth ∧
      c + countKind (.punctuation .openBrace) before =
        countKind (.punctuation .closeBrace) before + depth +
          if t.kind = .punctuation .closeBrace then 1 else 0

/-- **Blank lines stand before the tokens behind closing braces**, from line `n` on. The lines
around them are entries, except that the first line may be blank if a block was closed before it. -/
structure Spaced (l : Layout) (n : Nat) (b : Bool) (lines : List Line) (ts : List Token) :
    Prop where
  blank_iff : ∀ i, lines[i]? = some .blank ↔
    ∃ t ∈ Token.resumed b ts, n + i < t.span.line ∧ t.span.line ≤ n + i + l.blankLines
  apart : ∀ t ∈ Token.resumed b ts, ∃ k, t.span.line = n + l.blankLines + k ∧
    EntryAt lines (l.blankLines + k) ∧ (b = true ∧ k = 0 ∨ ∃ j, k = j + 1 ∧ EntryAt lines j)

/-! ### Blank lines in front -/

theorem getElem?_blanks_of_lt {i k : Nat} (h : i < k) (lines : List Line) :
    (List.replicate k Line.blank ++ lines)[i]? = some .blank := by
  rw [List.getElem?_append_left (by simpa using h), List.getElem?_replicate_of_lt h]

theorem getElem?_blanks (k j : Nat) (lines : List Line) :
    (List.replicate k Line.blank ++ lines)[k + j]? = lines[j]? := by
  rw [List.getElem?_append_right (by simp), List.length_replicate, Nat.add_sub_cancel_left]

section Step
variable {l : Layout} {n c c' depth : Nat} {b : Bool} {text : String} {lines : List Line}
  {t : Token} {us ts : List Token}

/-! ### Indentation -/

theorem Indented.cons (h : l.Row n c depth t us c') (hr : l.Indented (n + 1) c' lines ts) :
    l.Indented n c (.entry depth text :: lines) (t :: us ++ ts) := by
  intro i depth' text' hi
  cases i with
  | zero =>
    cases hi
    refine ⟨[], t, us ++ ts, rfl, by simp, h.line t List.mem_cons_self, h.column, ?_⟩
    simpa [countKind] using h.depth_eq
  | succ i =>
    obtain ⟨before, u, behind, rfl, hbefore, hline, hcolumn, hbraces⟩ := hr i depth' text' hi
    refine ⟨t :: us ++ before, u, behind, by simp, ?_, by omega, hcolumn, ?_⟩
    · intro v hv
      rcases List.mem_append.mp hv with hv | hv
      · rw [h.line v hv]
        omega
      · have := hbefore v hv
        omega
    · -- What the braces of this line open and close is known below it as `c'`.
      have hrow := h.braces
      simp only [countKind, List.map_append, List.count_append] at hbraces ⊢
      omega

theorem Indented.blanks {k : Nat} (hr : l.Indented (n + k) c lines ts) :
    l.Indented n c (List.replicate k .blank ++ lines) ts := by
  intro i depth' text' hi
  by_cases hik : i < k
  · rw [getElem?_blanks_of_lt hik] at hi
    cases hi
  · obtain ⟨j, rfl⟩ := Nat.exists_eq_add_of_le (Nat.le_of_not_lt hik)
    rw [getElem?_blanks] at hi
    rw [← Nat.add_assoc]
    exact hr j depth' text' hi

theorem Stands.indented (h : l.Stands n c b lines ts) : l.Indented n c lines ts := by
  induction h with
  | nil => exact fun i depth text hi => absurd hi (by simp)
  | entry hrow _ _ ih => exact .cons hrow ih
  | apart hrow _ _ ih => exact .blanks (.cons hrow ih)

/-! ### Keywords -/

theorem Row.joined (h : l.Row n c depth t us c') (ht : ts.IsChain Token.Joined) :
    (t :: us ++ ts).IsChain Token.Joined := by
  refine List.isChain_append.mpr ⟨?_, ht, ?_⟩
  · refine List.Pairwise.isChain (List.pairwise_of_forall_mem_list fun u hu v hv _ => ?_)
    rw [h.line u hu, h.line v hv]
  · rintro u hu v - ⟨word, hk⟩
    refine absurd ?_ (h.last word)
    rw [List.getLast?_map, hu, Option.map_some, hk]

/-- **No line ends in a keyword**, whatever stands behind the lines. -/
theorem Stands.joined (h : l.Stands n c b lines ts) {vs : List Token}
    (hv : vs.IsChain Token.Joined) : (ts ++ vs).IsChain Token.Joined := by
  induction h with
  | nil => exact hv
  | entry hrow _ _ ih =>
    rw [List.append_assoc]
    exact hrow.joined ih
  | apart hrow _ _ ih =>
    rw [List.append_assoc]
    exact hrow.joined ih

/-! ### Blank lines -/

theorem closes_eq_endsClosed (t : Token) (us : List Token) (b : Bool) :
    Token.closes b (t :: us) = endsClosed ((t :: us).map Token.kind) := by
  rw [Token.closes, endsClosed, List.getLast?_map,
    List.getLast?_eq_some_getLast (List.cons_ne_nil t us)]
  simp [Token.isMark]

/-- Only the first token of a line can stand behind a closing brace. -/
theorem Row.resumed_eq (h : l.Row n c depth t us c') (b : Bool) :
    Token.resumed b (t :: us) = if b && !t.isMark .closeBrace then [t] else [] := by
  have hclosing : Token.Open (t :: us).dropLast := by
    intro u hu
    refine Bool.eq_false_iff.mpr fun hmark => h.closing ?_
    rw [← List.map_dropLast, ← Token.isMark_iff.mp hmark]
    exact List.mem_map_of_mem hu
  have hsplit := List.dropLast_append_getLast (List.cons_ne_nil t us)
  cases us with
  | nil => rw [Token.resumed, Token.resumed, List.append_nil]
  | cons u us =>
    rw [List.dropLast_cons_cons] at hclosing hsplit
    rw [← hsplit, Token.resumed_append, hclosing.closes_eq, hclosing.resumed_eq,
      hclosing t List.mem_cons_self]
    cases b <;> simp [Token.resumed]

theorem Spaced.cons (h : l.Row n c depth t us c')
    (hb : b = true → t.kind = .punctuation .closeBrace)
    (hr : l.Spaced (n + 1) (endsClosed ((t :: us).map Token.kind)) lines ts) :
    l.Spaced n b (.entry depth text :: lines) (t :: us ++ ts) := by
  have hresumed : Token.resumed b (t :: us ++ ts) =
      Token.resumed (endsClosed ((t :: us).map Token.kind)) ts := by
    have hnone : (b && !t.isMark .closeBrace) = false := by
      cases b with
      | false => rfl
      | true => simp [Token.isMark, hb rfl]
    rw [Token.resumed_append, h.resumed_eq, hnone, closes_eq_endsClosed]
    rfl
  constructor
  · intro i
    rw [hresumed]
    cases i with
    | zero =>
      -- The next token behind a closing brace has all its blank lines below this entry.
      refine iff_of_false (by simp) ?_
      rintro ⟨u, hu, -, hle⟩
      obtain ⟨k, hk, -⟩ := hr.apart u hu
      omega
    | succ i =>
      rw [List.getElem?_cons_succ, hr.blank_iff]
      refine exists_congr fun u => and_congr_right fun _ => ?_
      omega
  · intro u hu
    rw [hresumed] at hu
    obtain ⟨k, hk, hentry, hbefore⟩ := hr.apart u hu
    refine ⟨k + 1, by omega, hentry, .inr ⟨k, rfl, ?_⟩⟩
    obtain ⟨-, rfl⟩ | ⟨j, rfl, hj⟩ := hbefore
    · exact ⟨depth, text, rfl⟩
    · exact hj

/-- Blank lines before a line that begins a block. -/
theorem Spaced.blanks (ht : t.kind ≠ .punctuation .closeBrace)
    (hline : t.span.line = n + l.blankLines)
    (hr : l.Spaced (n + l.blankLines) false (.entry depth text :: lines) (t :: ts)) :
    l.Spaced n true (List.replicate l.blankLines .blank ++ .entry depth text :: lines)
      (t :: ts) := by
  have hresumed : Token.resumed true (t :: ts) = t :: Token.resumed false (t :: ts) := by
    have hmark : t.isMark .closeBrace = false := by simpa [Token.isMark] using ht
    simp [Token.resumed, hmark]
  constructor
  · intro i
    rw [hresumed]
    by_cases hi : i < l.blankLines
    · rw [getElem?_blanks_of_lt hi]
      exact iff_of_true rfl ⟨t, List.mem_cons_self, by omega, by omega⟩
    · -- The token itself has no blank line behind it, so the others decide.
      obtain ⟨j, rfl⟩ := Nat.exists_eq_add_of_le (Nat.le_of_not_lt hi)
      rw [getElem?_blanks, hr.blank_iff, List.exists_mem_cons_iff, hline, ← Nat.add_assoc]
      simp
  · intro u hu
    rw [hresumed] at hu
    rcases List.mem_cons.mp hu with rfl | hu
    · exact ⟨0, hline, ⟨depth, text, getElem?_blanks ..⟩, .inl ⟨rfl, rfl⟩⟩
    · obtain ⟨k, hk, hentry, hbefore⟩ := hr.apart u hu
      obtain ⟨hfalse, -⟩ | ⟨j, rfl, hj⟩ := hbefore
      · cases hfalse
      · refine ⟨l.blankLines + j + 1, by omega, ?_, .inr ⟨l.blankLines + j, rfl, ?_⟩⟩
        · rw [EntryAt, Nat.add_assoc l.blankLines j, getElem?_blanks]
          exact hentry
        · rw [EntryAt, getElem?_blanks]
          exact hj

theorem Stands.spaced (h : l.Stands n c b lines ts) : l.Spaced n b lines ts := by
  induction h with
  | nil => exact ⟨by simp [Token.resumed], by simp [Token.resumed]⟩
  | entry hrow hb _ ih => exact .cons hrow hb ih
  | apart hrow ht _ ih =>
    have hline := hrow.line _ List.mem_cons_self
    exact .blanks ht hline (.cons hrow (by simp) ih)

end Step

/-! ### Rows -/

/-- What stands on a line, with its indentation. -/
def row (l : Layout) : Line → List Char
  | .blank => []
  | .entry depth text => List.replicate (depth * l.indentWidth) ' ' ++ text.toList

theorem toList_lineText_eq_row (l : Layout) (line : Line) :
    (l.lineText line).toList = l.row line ++ ['\n'] := by
  cases line with
  | blank => simp [lineText, row]
  | entry depth text => rw [toList_lineText, row, List.append_assoc]

/-- There is a row of this number, and it is not empty. -/
def Filled (text : List Char) (n : Nat) : Prop :=
  ∃ row, (Text.rows text)[n]? = some row ∧ row ≠ []

/-- A text whose last line is an entry ends in one line feed. -/
theorem ending_render (l : Layout) (lines : List Line) (depth : Nat) {text : String}
    (h : Solid text.toList) :
    ∃ front c, (l.render (lines ++ [.entry depth text])).toList = front ++ [c, '\n'] ∧
      c ≠ '\n' := by
  obtain ⟨c, hc, -⟩ := h.last
  obtain ⟨init, htext⟩ := List.getLast?_eq_some_iff.mp hc
  let spaces := List.replicate (depth * l.indentWidth) ' '
  refine ⟨(l.render lines).toList ++ (spaces ++ init), c, ?_, ?_⟩
  · rw [toList_render, List.flatMap_append, ← toList_render, List.flatMap_singleton,
      toList_lineText, htext]
    simp [spaces]
  · rintro rfl
    exact h.line (List.mem_of_getLast? hc)

section Laid
variable {l : Layout} {c c' : Nat} {b b' : Bool} {lines : List Line} (h : l.Laid c b lines c' b')
include h

theorem Laid.solid {depth : Nat} {text : String} (hm : .entry depth text ∈ lines) :
    Solid text.toList := by
  induction h with
  | nil => cases hm
  | entry hfits _ _ ih =>
    rcases List.mem_cons.mp hm with he | hm
    · cases he
      exact hfits.solid
    · exact ih hm
  | apart hfits _ _ ih =>
    rcases List.mem_append.mp hm with hm | hm
    · cases List.eq_of_mem_replicate hm
    · rcases List.mem_cons.mp hm with he | hm
      · cases he
        exact hfits.solid
      · exact ih hm

/-- The rows of a text are its lines. -/
theorem Laid.rows_render : Text.rows (l.render lines).toList = lines.map l.row := by
  have hline : ∀ row ∈ lines.map l.row, '\n' ∉ row := by
    intro row hrow
    obtain ⟨line, hm, rfl⟩ := List.mem_map.mp hrow
    cases line with
    | blank => simp [Layout.row]
    | entry depth text => simp [Layout.row, (h.solid hm).line]
  have htext : (l.render lines).toList = (lines.map l.row).flatMap (· ++ ['\n']) := by
    rw [toList_render, List.flatMap_map]
    exact List.flatMap_congr fun line _ => l.toList_lineText_eq_row line
  rw [htext, Text.rows_flatMap hline]

/-- An empty row is a blank line. -/
theorem Laid.getElem?_rows_eq_nil_iff {n : Nat} :
    (Text.rows (l.render lines).toList)[n]? = some [] ↔ lines[n]? = some .blank := by
  rw [h.rows_render, List.getElem?_map, Option.map_eq_some_iff]
  constructor
  · rintro ⟨line, hline, hrow⟩
    cases line with
    | blank => exact hline
    | entry depth text =>
      have hsolid := h.solid (List.mem_of_getElem? hline)
      exact absurd (List.append_eq_nil_iff.mp hrow).2 hsolid.ne_nil
  · intro hline
    exact ⟨.blank, hline, rfl⟩

/-- A row that is not empty is an entry. -/
theorem Laid.filled_iff {n : Nat} : Filled (l.render lines).toList n ↔ EntryAt lines n := by
  have hblank := h.getElem?_rows_eq_nil_iff (n := n)
  unfold Filled EntryAt
  rw [h.rows_render, List.getElem?_map] at hblank ⊢
  cases hline : lines[n]? with
  | none => simp
  | some line =>
    rw [hline] at hblank
    cases line with
    | blank => simp [row]
    | entry depth text => simpa using hblank

/-- No row ends in a blank. -/
theorem Laid.row_end {row : List Char} (hrow : row ∈ Text.rows (l.render lines).toList) {c : Char}
    (hc : c ∈ row.getLast?) : isBlank c = false := by
  rw [h.rows_render] at hrow
  obtain ⟨line, hm, rfl⟩ := List.mem_map.mp hrow
  cases line with
  | blank => cases hc
  | entry depth text =>
    have hsolid := h.solid hm
    obtain ⟨d, hd, hblank⟩ := hsolid.last
    rw [Layout.row, List.getLast?_append_of_ne_nil _ hsolid.ne_nil, hd] at hc
    cases hc
    exact hblank

end Laid

/-! ### The first line and the last -/

section Spaced
variable {l : Layout} {n : Nat} {b : Bool} {lines : List Line} {ts : List Token}

/-- The last line is no blank one. -/
theorem Spaced.exists_last (h : l.Spaced n b lines ts) (hne : lines ≠ []) :
    ∃ front depth text, lines = front ++ [.entry depth text] := by
  obtain ⟨front, last, rfl⟩ := List.eq_nil_or_concat lines |>.resolve_left hne
  cases last with
  | entry depth text => exact ⟨front, depth, text, by simp⟩
  | blank =>
    have hlast : (front.concat .blank)[front.length]? = some Line.blank := by simp
    obtain ⟨t, ht, hlt, -⟩ := (h.blank_iff front.length).mp hlast
    obtain ⟨k, hk, ⟨depth, text, hentry⟩, -⟩ := h.apart t ht
    obtain ⟨hlength, -⟩ := List.getElem?_eq_some_iff.mp hentry
    rw [List.concat_eq_append, List.length_append, List.length_singleton] at hlength
    omega

/-- The first line is no blank one where no block was closed before it. -/
theorem Spaced.getElem?_zero (h : l.Spaced n false lines ts) : lines[0]? ≠ some .blank := by
  intro hblank
  obtain ⟨t, ht, hlt, hle⟩ := (h.blank_iff 0).mp hblank
  obtain ⟨k, hk, -, ⟨hfalse, -⟩ | ⟨j, rfl, -⟩⟩ := h.apart t ht
  · cases hfalse
  · omega

end Spaced

/-! ### The law -/

/-- **What holds of a text that was laid out**, of its scan and of the program that is read off it.
Lines are counted from one, rows from zero.

There are no comments; the text ends in one line feed and does not begin in an empty row; no row
ends in a blank. The first token of every row stands behind the indentation, and its depth is the
number of the blocks that the braces before it leave open, without the one that it closes. The token
behind a keyword stands on the same line, so that a block starts on its first line. A row is empty
exactly if it is one of those before the first line of a module or interface behind another one,
as many as the layout asks for, and the rows around these are not empty. -/
structure Lawful (l : Layout) (text : List Char) (scan : Scan) (program : List Module) : Prop where
  comments : scan.comments = []
  ending : text ≠ [] → ∃ front c, text = front ++ [c, '\n'] ∧ c ≠ '\n'
  beginning : (Text.rows text)[0]? ≠ some []
  row_end : ∀ row ∈ Text.rows text, ∀ c ∈ row.getLast?, c ≠ ' ' ∧ c ≠ '\t' ∧ c ≠ '\r'
  indented : ∀ n, Filled text n → ∃ before t behind depth, scan.tokens = before ++ t :: behind ∧
    (∀ u ∈ before, u.span.line < n + 1) ∧ t.span.line = n + 1 ∧
    t.span.column = 1 + l.indentWidth * depth ∧
    countKind (.punctuation .openBrace) before =
      countKind (.punctuation .closeBrace) before + depth +
        if t.kind = .punctuation .closeBrace then 1 else 0
  joined : scan.tokens.IsChain Token.Joined
  blank_iff : ∀ n, (Text.rows text)[n]? = some [] ↔
    ∃ s ∈ laterLines program, n + 1 < s ∧ s ≤ n + 1 + l.blankLines
  apart : ∀ s ∈ laterLines program, ∃ n, s = n + l.blankLines + 2 ∧ Filled text n ∧
    Filled text (n + l.blankLines + 1)

/-- The tokens of a scan are in order. -/
theorem lined_dropLast {source : String} {scan : Scan} (h : Scan.ofText source = .ok scan)
    (hj : scan.tokens.IsChain Token.Joined) : Token.Lined scan.tokens.dropLast := by
  constructor
  · have hp := (Scan.pairwise_tokens h).sublist (List.dropLast_sublist _)
    refine hp.imp_of_mem fun {t u} ht _ htu => ?_
    exact Nat.le_trans (Nat.le_of_lt (Scan.start_lt_stop_of_mem h t ht)) htu
  · exact hj.prefix (List.dropLast_prefix _)

theorem Laid.lawful {l : Layout} {lines : List Line} {b : Bool} (h : l.Laid 0 false lines 0 b)
    {scan : Scan} (hscan : Scan.ofText (l.render lines) = .ok scan) (hcomments : scan.comments = [])
    {program : List Module} (hparse : parse scan.tokens = .ok program) :
    l.Lawful (l.render lines).toList scan program := by
  obtain ⟨last, -, htokens⟩ := Scan.tokens_eq_of_ofText hscan
  have hstands : l.Stands 1 0 false lines scan.tokens.dropLast := by
    rw [Scan.tokens_eq_tokensAt hscan]
    exact stands_of_laid h (p := .start) rfl
  have hspaced := hstands.spaced
  have hjoined : scan.tokens.IsChain Token.Joined := by
    rw [htokens]
    exact hstands.joined (List.isChain_singleton _)
  have hlater : ∀ {s}, s ∈ laterLines program ↔
      ∃ t ∈ Token.resumed false scan.tokens.dropLast, t.span.line = s := by
    obtain ⟨hrun, -⟩ := (Draft.read_eq_ok_iff Draft.distinct_empty).mp hparse
    rw [Scan.beforeEnd_tokens hscan] at hrun
    exact (Draft.run_eq_some_iff.mp hrun).mem_laterLines_iff (lined_dropLast hscan hjoined)
  exact
    { comments := hcomments
      ending := by
        intro hne
        have hlines : lines ≠ [] := fun he => hne (by rw [he]; rfl)
        obtain ⟨front, depth, text, rfl⟩ := hspaced.exists_last hlines
        have hsolid : Solid text.toList := h.solid (List.mem_append_right _ List.mem_cons_self)
        exact l.ending_render front depth hsolid
      beginning := by
        rw [Ne, h.getElem?_rows_eq_nil_iff]
        exact hspaced.getElem?_zero
      row_end := by
        intro row hrow c hc
        have hblank := h.row_end hrow hc
        refine ⟨?_, ?_, ?_⟩ <;> rintro rfl <;> cases hblank
      indented := by
        intro n hn
        obtain ⟨depth, text, hline⟩ := h.filled_iff.mp hn
        obtain ⟨before, t, behind, hsplit, hbefore, hrow, hcolumn, hbraces⟩ :=
          hstands.indented n depth text hline
        rw [Nat.add_comm 1 n] at hbefore hrow
        rw [Nat.zero_add] at hbraces
        refine ⟨before, t, behind ++ [last], depth, ?_, hbefore, hrow, hcolumn, hbraces⟩
        rw [htokens, hsplit]
        simp
      joined := hjoined
      blank_iff := by
        intro n
        rw [h.getElem?_rows_eq_nil_iff, hspaced.blank_iff, Nat.add_comm 1 n]
        constructor
        · rintro ⟨t, ht, hbounds⟩
          exact ⟨_, hlater.mpr ⟨t, ht, rfl⟩, hbounds⟩
        · rintro ⟨s, hs, hbounds⟩
          obtain ⟨t, ht, rfl⟩ := hlater.mp hs
          exact ⟨t, ht, hbounds⟩
      apart := by
        intro s hs
        obtain ⟨t, ht, rfl⟩ := hlater.mp hs
        obtain ⟨k, hk, hentry, ⟨hfalse, -⟩ | ⟨j, rfl, hj⟩⟩ := hspaced.apart t ht
        · cases hfalse
        · refine ⟨j, by omega, h.filled_iff.mpr hj, h.filled_iff.mpr ?_⟩
          rwa [Nat.add_comm j, Nat.add_assoc] }

end Layout

/-- **The law of the layout.** Every source that is read has a text in every layout. The text is
empty if there are no modules. It is scanned and read as the program of the source, apart from
spans, and it is lawful. -/
theorem format_lawful {source : String} {program : List Module}
    (h : parseText source = .ok program) (l : Layout) :
    ∃ text scan again, l.formatText source = .ok text ∧ Scan.ofText text = .ok scan ∧
      parse scan.tokens = .ok again ∧ eraseSpans again = eraseSpans program ∧
      (text = "" ↔ program = []) ∧ l.Lawful text.toList scan again := by
  have hw := wellFormed_of_parseText h
  have hlaid := l.laid_lines hw.modules
  obtain ⟨scan, hscan, hkinds, hcomments⟩ := l.ofText_format hw.modules
  obtain ⟨again, hparse, he⟩ := exists_parse_of_kinds l hw hkinds
  refine ⟨l.format program, scan, again, Layout.formatText_of_parseText h l, hscan, hparse, he, ?_,
    hlaid.lawful hscan hcomments hparse⟩
  constructor
  · intro hempty
    have hrows := hlaid.rows_render
    rw [show l.render (l.lines program) = "" from hempty] at hrows
    rw [List.map_eq_nil_iff.mp hrows.symm] at hlaid
    generalize hb : (!program.isEmpty) = b at hlaid
    cases hlaid
    simpa using hb
  · rintro rfl
    exact l.format_nil

/-- The second interface and the second module start on lines 5 and 12, behind two blank lines each;
the braces of a string do not count. -/
theorem format_lawful_apart :
    let source := "module M\x7b// one\ninterface I\x7b\x7d " ++
      "@d(\"\x7d \x7b\")interface J\x7bT a;\x7d\x7dmodule N\x7b\x7d"
    let text := "module M \x7b\n  interface I \x7b\x7d\n\n\n  @d(\"\x7d \x7b\")\n" ++
      "  interface J \x7b\n    T a;\n  \x7d\n\x7d\n\n\nmodule N \x7b\x7d\n"
    let d : Annotation := ⟨"d", some (.string "\x7d \x7b"), ⟨30, 39, 2, 15⟩⟩
    let a : Attribute := ⟨"a", "T", .readWrite, [], ⟨53, 54, 2, 38⟩⟩
    let i : Interface := ⟨"I", [], [], [], [], ⟨26, 27, 2, 11⟩⟩
    let j : Interface := ⟨"J", [a], [], [.attribute], [d], ⟨49, 50, 2, 34⟩⟩
    let program : List Module := [⟨"M", [i, j], [], ⟨7, 8, 1, 8⟩⟩, ⟨"N", [], [], ⟨64, 65, 2, 49⟩⟩]
    let l : Layout := ⟨2, 2, false⟩
    parseText source = .ok program ∧ l.formatText source = .ok text ∧
      ∃ scan again, Scan.ofText text = .ok scan ∧ parse scan.tokens = .ok again ∧
        laterLines again = [12, 5] ∧ l.Lawful text.toList scan again := by
  intro source text d a i j program l
  have h : parseText source = .ok program := by decide +kernel
  have hformat : l.formatText source = .ok text := by decide +kernel
  obtain ⟨text', scan, again, hformat', hscan, hparse, -, -, hlawful⟩ := format_lawful h l
  obtain rfl : text = text' := Except.ok.inj (hformat.symm.trans hformat')
  have hread : parseText text = .ok again := parseText_eq_ok_iff.mpr ⟨scan, hscan, hparse⟩
  have hlines : (parseText text).map laterLines = .ok [12, 5] := by decide +kernel
  rw [hread] at hlines
  exact ⟨h, hformat, scan, again, hscan, hparse, Except.ok.inj hlines, hlawful⟩

end Idl
