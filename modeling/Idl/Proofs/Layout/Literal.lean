import Idl.Proofs.Layout.Standing
import Idl.Proofs.Lexeme.Stuck

/-! # Quoted literals

A literal is written between quotes on one line, so a text that follows it starts on that line as
well. There it is cut as if it stood alone, but its lexemes stand further to the right: all offsets
grow by the bytes of the literal, and on the first line the columns grow by its characters, while
further down they stay (`Span.beside`).

* `Position.after_along`: a walk that starts further to the right.
* `Scan.ofText_beside`: the scan of a text behind a token without a line feed, or the error in it.
* `Scan.ofText_literal`: a literal that was written is read back in front of every text, and so is
  every value that was read somewhere. -/

namespace Idl

/-! ### Positions and spans further to the right -/

/-- A position with more bytes and characters in front of its text, all on the first line. -/
def Position.along (bytes chars : Nat) (p : Position) : Position :=
  ⟨p.offset + bytes, p.line, if p.line = 1 then p.column + chars else p.column⟩

/-- A span with more bytes and characters in front of its text, all on the first line. -/
def Span.along (bytes chars : Nat) (s : Span) : Span :=
  ⟨s.start + bytes, s.stop + bytes, s.line, if s.line = 1 then s.column + chars else s.column⟩

/-- **A span of a text that stands behind another text**, and on the same line. -/
def Span.beside (front : String) (s : Span) : Span := s.along front.utf8ByteSize front.length

namespace Position

/-- A line feed leads to a line that nothing stands in front of. -/
theorem next_along (bytes chars : Nat) {p : Position} (hp : 1 ≤ p.line) (c : Char) :
    (p.along bytes chars).next c = (p.next c).along bytes chars := by
  unfold next
  split
  · have hline : p.line + 1 ≠ 1 := by omega
    simp only [along, hline, if_false, mk.injEq, and_true]
    omega
  · simp only [along, mk.injEq, true_and]
    constructor
    · omega
    · split <;> omega

theorem one_le_line_after {p : Position} (hp : 1 ≤ p.line) (text : List Char) :
    1 ≤ (p.after text).line := by
  rw [line_after]
  omega

theorem after_along (bytes chars : Nat) {p : Position} (hp : 1 ≤ p.line) (text : List Char) :
    (p.along bytes chars).after text = (p.after text).along bytes chars := by
  induction text generalizing p with
  | nil => rfl
  | cons c text ih =>
    have hnext : 1 ≤ (p.next c).line := one_le_line_after hp [c]
    rw [after_cons, next_along bytes chars hp, ih hnext, after_cons]

theorem after_of_line {front : String} (h : '\n' ∉ front.toList) :
    start.after front.toList = start.along front.utf8ByteSize front.length := by
  have hoffset := offset_after start front.toList
  have hline := line_after_of_line h start
  have hcolumn := column_after_of_line h start
  rw [String.ofList_toList] at hoffset
  rw [String.length_toList] at hcolumn
  rcases hp : start.after front.toList with ⟨offset, line, column⟩
  rw [hp] at hoffset hline hcolumn
  simp only at hoffset hline hcolumn
  subst hoffset hline hcolumn
  rfl

end Position

/-- The span of a text without a line feed that stands at the start. -/
theorem Span.between_of_line {front : String} (h : '\n' ∉ front.toList) :
    between .start (Position.start.after front.toList) = ⟨0, front.utf8ByteSize, 1, 1⟩ := by
  have hstop : 0 + front.utf8ByteSize = front.utf8ByteSize := Nat.zero_add _
  rw [Position.after_of_line h]
  exact congrArg (fun stop => (⟨0, stop, 1, 1⟩ : Span)) hstop

theorem Span.between_along (bytes chars : Nat) (p q : Position) :
    between (p.along bytes chars) (q.along bytes chars) = (between p q).along bytes chars := rfl

namespace Lexeme

theorem placed_along (bytes chars : Nat) {p : Position} (hp : 1 ≤ p.line) (ls : List Lexeme) :
    placed (p.along bytes chars) ls =
      (placed p ls).map fun x => (x.1, x.2.along bytes chars) := by
  induction ls generalizing p with
  | nil => rfl
  | cons l ls ih =>
    have hafter := Position.one_le_line_after hp l.text
    rw [placed_cons, Position.after_along bytes chars hp, Span.between_along, ih hafter,
      placed_cons, List.map_cons]

end Lexeme

theorem Stuck.error_along (s : Stuck) (bytes chars : Nat) {p : Position} (hp : 1 ≤ p.line) :
    s.error (p.along bytes chars) = (s.error p).mapSpan (Span.along bytes chars) := by
  have hskipped := Position.one_le_line_after hp s.skipped
  simp only [error, Position.after_along bytes chars hp, Position.after_along bytes chars hskipped,
    Span.between_along, LexError.mapSpan]

/-! ### A token in front of a text -/

namespace Scan

open Lexeme

/-- A scan with one more token in front. -/
def push (t : Token) (s : Scan) : Scan := ⟨t :: s.tokens, s.comments⟩

section Beside
variable {front : String} (h : '\n' ∉ front.toList) (kind : TokenKind)
include h

/-- The scan of lexemes that stand behind a token without a line feed. -/
theorem ofLexemes_beside (later : List Lexeme) :
    ofLexemes (⟨.token kind, front.toList⟩ :: later) =
      ((ofLexemes later).mapSpan (.beside front)).push
        ⟨kind, ⟨0, front.utf8ByteSize, 1, 1⟩⟩ := by
  have hstart : 1 ≤ Position.start.line := Nat.le_refl 1
  have hspan := Span.between_of_line h
  rw [Position.after_of_line h] at hspan
  simp only [ofLexemes, placed_cons, texts_cons, Position.after_append, Position.after_of_line h,
    placed_along _ _ hstart, Position.after_along _ _ hstart, hspan, List.filterMap_cons, token?,
    comment?, filterMap_token?_map, filterMap_comment?_map, mapSpan, push, List.map_append,
    List.cons_append]
  rfl

theorem error_beside (later : List Lexeme) (stuck : Stuck) :
    stuck.error (Position.start.after (texts (⟨.token kind, front.toList⟩ :: later))) =
      (stuck.error (Position.start.after (texts later))).mapSpan (.beside front) := by
  have hstart : 1 ≤ Position.start.line := Nat.le_refl 1
  have hlater := Position.one_le_line_after hstart (texts later)
  have hwalk : Position.start.after (texts (⟨.token kind, front.toList⟩ :: later)) =
      (Position.start.after (texts later)).along front.utf8ByteSize front.length := by
    rw [texts_cons, Position.after_append, Position.after_of_line h,
      Position.after_along _ _ hstart]
  rw [hwalk, Stuck.error_along stuck _ _ hlater]
  rfl

/-- **A text behind a token without a line feed is scanned as if it stood alone**, further to the
right, if the token is the lexeme in front. -/
theorem ofText_beside {rest : String}
    (hcut : cut (front ++ rest).toList =
      (⟨.token kind, front.toList⟩ :: (cut rest.toList).1, (cut rest.toList).2)) :
    ofText (front ++ rest) =
      ((ofText rest).map fun later =>
        (later.mapSpan (.beside front)).push ⟨kind, ⟨0, front.utf8ByteSize, 1, 1⟩⟩).mapError
          (LexError.mapSpan (.beside front)) := by
  unfold ofText
  rw [hcut]
  generalize cut rest.toList = r
  obtain ⟨later, stuck⟩ := r
  cases stuck with
  | none => exact congrArg Except.ok (ofLexemes_beside h kind later)
  | some stuck => exact congrArg Except.error (error_beside h kind later stuck)

end Beside

/-! ### Literals -/

theorem toList_quote (value : String) : (Text.Quoted.quote value).toList =
    '"' :: (Text.Quoted.encode value.toList ++ ['"']) := by
  simp [Text.Quoted.quote]

/-- **A literal is cut off whatever follows**, and the cut goes on behind it. -/
theorem cut_quote (value : String) (rest : List Char) :
    cut ((Text.Quoted.quote value).toList ++ rest) =
      (⟨.token (.string value), (Text.Quoted.quote value).toList⟩ :: (cut rest).1,
        (cut rest).2) := by
  have hread := Text.Quoted.read_encode value.toList rest
  have hfirst : first '"' (Text.Quoted.encode value.toList ++ '"' :: rest) =
      .ok (⟨.token (.string value), (Text.Quoted.quote value).toList⟩, rest) := by
    have hstring : ∀ input, first '"' input = string input := fun _ => rfl
    rw [hstring, string, hread, toList_quote]
    simp only [String.ofList_toList]
  have hfront : (Text.Quoted.quote value).toList ++ rest =
      '"' :: (Text.Quoted.encode value.toList ++ '"' :: rest) := by
    rw [toList_quote, List.cons_append, List.append_assoc]
    rfl
  rw [hfront, cut_cons_ok hfirst]

theorem ne_of_mem_quote {value : String} {c : Char} (h : c ∈ (Text.Quoted.quote value).toList) :
    c ≠ '\n' ∧ c ≠ '\r' ∧ c ≠ '\t' ∧ c ≠ '\x00' := by
  rw [toList_quote, List.mem_cons, List.mem_append, List.mem_singleton] at h
  rcases h with rfl | hmem | rfl
  · decide
  · obtain ⟨hn, ht, hr, h0⟩ := Text.Quoted.ne_of_mem_encode hmem
    exact ⟨hn, hr, ht, h0⟩
  · decide

theorem newline_not_mem_quote (value : String) : '\n' ∉ (Text.Quoted.quote value).toList :=
  fun h => (ne_of_mem_quote h).1 rfl

/-- What was cut off a text is of its class, also if the cut is stuck further on. -/
theorem spelled_of_mem_cut {text : List Char} {l : Lexeme} (h : l ∈ (cut text).1) :
    Spelled l.kind l.text := by
  rcases hcut : cut text with ⟨ls, _ | stuck⟩
  · rw [hcut] at h
    exact (cut_eq_iff.mp hcut).spelled l h
  · rw [hcut] at h
    obtain ⟨rest, hstuck, -⟩ := stuckBehind_of_cut hcut
    exact hstuck.longest.longestCut.spelled l h

/-- A literal that was read stands for its value by itself. -/
theorem yields_of_spelled {text : List Char} {value : String}
    (h : Spelled (.token (.string value)) text) : Yields text [.string value] := by
  cases h with
  | @string body value hq =>
    have hyields : Yields ('"' :: ((body ++ ['"']) ++ [])) [.string (String.ofList value)] := by
      refine yields_nil.token fun rest => ?_
      have hfirst := first_string hq rest
      rwa [List.append_assoc]
    rwa [List.append_nil] at hyields

/-- A value as an annotation carries it. -/
def literalText (value : String) : String := (AnnotationValue.string value).text

/-- The token of a literal at the start of a text. -/
def literalToken (value : String) : Token :=
  ⟨.string value, ⟨0, (literalText value).utf8ByteSize, 1, 1⟩⟩

theorem slice?_literalToken (value rest : String) :
    (literalToken value).span.slice? (literalText value ++ rest) = some (literalText value) := by
  have hline : '\n' ∉ (literalText value).toList := newline_not_mem_quote value
  have hspan : (literalToken value).span =
      .between .start (Position.start.after (literalText value).toList) :=
    (Span.between_of_line hline).symm
  have hsource : (literalText value ++ rest).toList =
      [] ++ (literalText value).toList ++ rest.toList := by
    rw [String.toList_append, List.nil_append]
  have hcovers : (literalToken value).span.Covers (literalText value ++ rest).toList
      (literalText value).toList := by
    refine ⟨[], rest.toList, hsource, ?_⟩
    rw [List.nil_append, Position.after_nil]
    exact hspan
  rw [Span.slice?_of_covers hcovers, String.ofList_toList]

/-- **A literal that was written is read back in front of every text.** It is the first token and
covers the literal, what follows is scanned as if it stood alone, and the literal stays on its line.
A value that was read anywhere, from whatever spelling, is written as a literal with that value. -/
theorem ofText_literal (value rest : String) :
    cut (literalText value ++ rest).toList =
        (⟨.token (.string value), (literalText value).toList⟩ :: (cut rest.toList).1,
          (cut rest.toList).2) ∧
      ofText (literalText value ++ rest) =
        ((ofText rest).map fun later =>
          (later.mapSpan (.beside (literalText value))).push (literalToken value)).mapError
            (LexError.mapSpan (.beside (literalText value))) ∧
      (literalToken value).span.slice? (literalText value ++ rest) = some (literalText value) ∧
      (∀ c ∈ (literalText value).toList, c ≠ '\n' ∧ c ≠ '\r' ∧ c ≠ '\t' ∧ c ≠ '\x00') ∧
      ∀ source : List Char, ∀ l ∈ (cut source).1, ∀ read, l.kind = .token (.string read) →
        ∃ scan scan', ofText (String.ofList l.text) = .ok scan ∧
          ofText (literalText read) = .ok scan' ∧
          scan.tokens.map Token.kind = [.string read, .endOfInput] ∧
          scan'.tokens.map Token.kind = [.string read, .endOfInput] := by
  have hcut : cut (literalText value ++ rest).toList =
      (⟨.token (.string value), (literalText value).toList⟩ :: (cut rest.toList).1,
        (cut rest.toList).2) := by
    rw [String.toList_append]
    exact cut_quote value rest.toList
  refine ⟨hcut, ?_, ?_, ?_, ?_⟩
  · exact ofText_beside (newline_not_mem_quote value) (.string value) hcut
  · exact slice?_literalToken value rest
  · intro c hc
    exact ne_of_mem_quote hc
  · intro source l hl read hkind
    have hspelled := spelled_of_mem_cut hl
    rw [hkind] at hspelled
    have hyields : Yields (String.ofList l.text).toList [.string read] := by
      rw [String.toList_ofList]
      exact yields_of_spelled hspelled
    have hquote : Yields (literalText read).toList [.string read] := by
      have hnil := yields_nil.quote read
      rwa [List.append_nil] at hnil
    obtain ⟨scan, hscan, hkinds, -⟩ := ofText_of_yields hyields
    obtain ⟨scan', hscan', hkinds', -⟩ := ofText_of_yields hquote
    exact ⟨scan, scan', hscan, hscan', hkinds, hkinds'⟩

/-- A tab between quotes is read, in a text that cannot be scanned, and written as an escape. -/
theorem ofText_literal_tab :
    ⟨.token (.string "a\t"), "\"a\t\"".toList⟩ ∈ (cut "x \"a\t\" #".toList).1 ∧
      literalText "a\t" = "\"a\\t\"" ∧
      ∃ scan, ofText "\"a\\t\"" = .ok scan ∧
        scan.tokens.map Token.kind = [.string "a\t", .endOfInput] := by
  have hmem : ⟨.token (.string "a\t"), "\"a\t\"".toList⟩ ∈ (cut "x \"a\t\" #".toList).1 := by
    decide +kernel
  have htext : literalText "a\t" = "\"a\\t\"" := by decide +kernel
  obtain ⟨-, -, -, -, hread⟩ := ofText_literal "" ""
  obtain ⟨-, scan, -, hscan, -, hkinds⟩ := hread _ _ hmem "a\t" rfl
  rw [htext] at hscan
  exact ⟨hmem, htext, scan, hscan, hkinds⟩

end Scan

end Idl
