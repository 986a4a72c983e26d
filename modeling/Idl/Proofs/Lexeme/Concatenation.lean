import Idl.Proofs.Draft.SpanMap
import Idl.Proofs.Lexeme.LongestMatch

/-! # Scanning a text behind another one

A line feed ends every lexeme that it does not stand in, and none but a blank starts with it. So a
text that can be scanned is cut in the same way when a line feed and more text follow, and behind
the line feed the other text is cut as if it stood alone (`cut_append_newline`). Its lexemes stand
further down: all offsets grow by the bytes before them and all lines by the line feeds before them,
while the columns stay (`Span.behind`).

* `first_append_newline`: the lexeme at the front of a text does not see what follows a line feed.
* `Position.after_newline`: where the text behind the line feed starts.
* `Scan.ofText_append_newline`: the scan of the two texts, or the error in the second one. -/

namespace Idl

/-! ### Positions and spans further down -/

/-- A position with more bytes and lines in front of it. -/
def Position.shift (bytes lines : Nat) (p : Position) : Position :=
  ⟨p.offset + bytes, p.line + lines, p.column⟩

/-- A span with more bytes and lines in front of it. -/
def Span.shift (bytes lines : Nat) (s : Span) : Span :=
  ⟨s.start + bytes, s.stop + bytes, s.line + lines, s.column⟩

/-- **A span of a text that stands behind another text**, on a line of its own. -/
def Span.behind (source : String) (s : Span) : Span :=
  s.shift (source.utf8ByteSize + 1) (source.toList.count '\n' + 1)

namespace Position

theorem next_shift (bytes lines : Nat) (p : Position) (c : Char) :
    (p.shift bytes lines).next c = (p.next c).shift bytes lines := by
  unfold next
  split
  · simp only [shift, mk.injEq, and_true]
    omega
  · simp only [shift, mk.injEq, and_true]
    omega

theorem after_shift (bytes lines : Nat) (p : Position) (text : List Char) :
    (p.shift bytes lines).after text = (p.after text).shift bytes lines := by
  induction text generalizing p with
  | nil => rfl
  | cons c text ih => rw [after_cons, next_shift, ih, after_cons]

/-- A walk passes as many bytes as the text has. -/
theorem offset_after (p : Position) (text : List Char) :
    (p.after text).offset = p.offset + (String.ofList text).utf8ByteSize := by
  induction text generalizing p with
  | nil => simp
  | cons c text ih =>
    have hs : String.ofList (c :: text) = String.singleton c ++ String.ofList text := by
      rw [← String.toList_inj]
      simp
    rw [after_cons, ih, offset_next, hs, String.utf8ByteSize_append, String.utf8ByteSize_singleton]
    omega

/-- A walk passes as many lines as the text has line feeds. -/
theorem line_after (p : Position) (text : List Char) :
    (p.after text).line = p.line + text.count '\n' := by
  induction text generalizing p with
  | nil => simp
  | cons c text ih =>
    rw [after_cons, ih, List.count_cons]
    by_cases hc : c = '\n'
    · simp [next, hc]
      omega
    · simp [next, hc]

/-- **Behind a text and a line feed** a new line starts. -/
theorem after_newline (source : String) :
    (start.after source.toList).after ['\n'] =
      start.shift (source.utf8ByteSize + 1) (source.toList.count '\n' + 1) := by
  have ho := offset_after start source.toList
  have hl := line_after start source.toList
  have hsize : Char.utf8Size '\n' = 1 := by decide
  have hstart : start.offset = 0 ∧ start.line = 1 ∧ start.column = 1 := ⟨rfl, rfl, rfl⟩
  rw [String.ofList_toList] at ho
  simp only [after_cons, after_nil, next, if_true, hsize, ho, hl, shift, hstart, mk.injEq, and_true]
  omega

end Position

namespace Span

theorem between_shift (bytes lines : Nat) (p q : Position) :
    between (p.shift bytes lines) (q.shift bytes lines) = (between p q).shift bytes lines := rfl

/-- Moving two spans down moves the range that covers them. -/
theorem shift_merge (bytes lines : Nat) (a b : Span) :
    (a.merge b).shift bytes lines = (a.shift bytes lines).merge (b.shift bytes lines) := by
  have hmax : max (a.stop + bytes) (b.stop + bytes) = max a.stop b.stop + bytes := by omega
  by_cases h : a.start ≤ b.start
  · simp [merge, shift, hmax, h]
  · simp [merge, shift, hmax, h]

theorem behind_merge (source : String) (a b : Span) :
    (a.merge b).behind source = (a.behind source).merge (b.behind source) :=
  shift_merge _ _ a b

end Span

/-- An error of the cut at another place. -/
def LexError.mapSpan (f : Span → Span) (e : LexError) : LexError := { e with span := f e.span }

namespace Lexeme

/-! ### What a lexeme does not see -/

theorem takeWhile_append_cons {p : Char → Bool} {c : Char} (hc : p c = false)
    (text rest : List Char) : (text ++ c :: rest).takeWhile p = text.takeWhile p := by
  induction text with
  | nil => simp [hc]
  | cons d text ih => simp only [List.cons_append, List.takeWhile_cons, ih]

theorem dropWhile_append_cons {p : Char → Bool} {c : Char} (hc : p c = false)
    (text rest : List Char) :
    (text ++ c :: rest).dropWhile p = text.dropWhile p ++ c :: rest := by
  induction text with
  | nil => simp [hc]
  | cons d text ih =>
    simp only [List.cons_append, List.dropWhile_cons, ih]
    split <;> rfl

/-- A numeral ends at a line feed at the latest, also behind a dot. -/
theorem numeral_append_newline (text rest : List Char) :
    numeral (text ++ '\n' :: rest) = ((numeral text).1, (numeral text).2 ++ '\n' :: rest) := by
  have hn : Char.isDigit '\n' = false := by decide
  unfold numeral
  rw [takeWhile_append_cons hn, dropWhile_append_cons hn]
  cases hd : text.dropWhile Char.isDigit with
  | nil => simp
  | cons c tail =>
    by_cases hc : c = '.'
    · subst hc
      cases tail with
      | nil => simp [hn]
      | cons d tail =>
        by_cases hdig : d.isDigit = true
        · have ht := takeWhile_append_cons hn (d :: tail) rest
          have hw := dropWhile_append_cons hn (d :: tail) rest
          rw [List.cons_append] at ht hw
          simp [hdig, ht, hw]
        · simp [hdig]
    · simp [hc]

theorem commentBody_append_of_some {input text rest : List Char}
    (h : commentBody input = some (text, rest)) (more : List Char) :
    commentBody (input ++ more) = some (text, rest ++ more) := by
  obtain ⟨body, rfl, hb⟩ := not_infix_of_commentBody h
  rw [eq_append_of_commentBody h]
  simpa using commentBody_append hb (rest ++ more)

theorem read_append_of_closed {input text value rest : List Char}
    (h : Text.Quoted.read input = .closed text value rest) (more : List Char) :
    Text.Quoted.read (input ++ more) = .closed text value (rest ++ more) := by
  obtain ⟨body, rfl, hq⟩ := quotable_of_read h
  rw [Text.Quoted.eq_append_of_closed h]
  simpa using read_of_quotable hq (rest ++ more)

theorem comment_append_newline {input rest : List Char} {l : Lexeme}
    (h : comment input = .ok (l, rest)) (more : List Char) :
    comment (input ++ '\n' :: more) = .ok (l, rest ++ '\n' :: more) := by
  have hn : decide ('\n' ≠ '\n') = false := by decide
  unfold comment at h
  split at h
  · next tail =>
    cases h
    have ht := takeWhile_append_cons (p := fun c => decide (c ≠ '\n')) hn ('/' :: tail) more
    have hw := dropWhile_append_cons (p := fun c => decide (c ≠ '\n')) hn ('/' :: tail) more
    rw [List.cons_append] at ht hw ⊢
    simp only [comment, ht, hw]
  · split at h
    · next hb =>
      cases h
      simp [comment, commentBody_append_of_some hb]
    · cases h
  · cases h

/-- **A lexeme does not see what follows a line feed** behind its text. -/
theorem first_append_newline {c : Char} {input rest : List Char} {l : Lexeme}
    (h : first c input = .ok (l, rest)) (more : List Char) :
    first c (input ++ '\n' :: more) = .ok (l, rest ++ '\n' :: more) := by
  unfold first at h ⊢
  split at h
  · next hb => cases h; rw [if_pos hb]
  rw [if_neg ‹_›]
  split at h
  · next hc => rw [if_pos hc]; exact comment_append_newline h more
  rw [if_neg ‹_›]
  split at h
  · next hc =>
    rw [if_pos hc]
    unfold string at h ⊢
    split at h
    · next hr => cases h; rw [read_append_of_closed hr]
    · cases h
    · cases h
  rw [if_neg ‹_›]
  split at h
  · next hc =>
    rw [if_pos hc]
    unfold signed at h ⊢
    split at h
    · next hd =>
      cases h
      have hd' : (input ++ '\n' :: more).head?.any Char.isDigit = true := by
        cases input with
        | nil => cases hd
        | cons d input => exact hd
      rw [if_pos hd', number, numeral_append_newline]
    · cases h
  rw [if_neg ‹_›]
  split at h
  · next hd =>
    cases h
    rw [if_pos hd, number, ← List.cons_append, numeral_append_newline]
  rw [if_neg ‹_›]
  split at h
  · next hw =>
    cases h
    have hn : isWordPart '\n' = false := by decide
    rw [if_pos hw, word, takeWhile_append_cons hn, dropWhile_append_cons hn]
  · rw [if_neg ‹_›]
    unfold mark at h ⊢
    split at h
    · cases h; rfl
    · cases h

/-- The line feed between two texts. -/
def newline : Lexeme := ⟨.blank, ['\n']⟩

/-- **Two texts with a line feed between them are cut one behind the other.** -/
theorem cut_append_newline {text : List Char} {ls : List Lexeme} (h : cut text = (ls, none))
    (more : List Char) :
    cut (text ++ '\n' :: more) = (ls ++ newline :: (cut more).1, (cut more).2) := by
  have hl := cut_eq_iff.mp h
  clear h
  induction hl with
  | nil => exact cut_cons_ok (first_blank rfl more)
  | @cons l rest ls hlong _ ih =>
    obtain ⟨c, cs, hc⟩ := List.exists_cons_of_ne_nil (spelled_ne_nil hlong.spelled)
    have hf : first c (cs ++ rest) = .ok (l, rest) :=
      first_eq_ok_iff.mpr ⟨by rw [hc, List.cons_append], hlong⟩
    have hcut := cut_cons_ok (first_append_newline hf more)
    rw [ih] at hcut
    rw [hc]
    simpa using hcut

/-! ### Where the lexemes stand -/

theorem placed_shift (bytes lines : Nat) (p : Position) (ls : List Lexeme) :
    placed (p.shift bytes lines) ls =
      (placed p ls).map fun x => (x.1, x.2.shift bytes lines) := by
  induction ls generalizing p with
  | nil => rfl
  | cons l ls ih =>
    rw [placed_cons, Position.after_shift, Span.between_shift, ih, placed_cons, List.map_cons]

end Lexeme

theorem Stuck.error_shift (s : Stuck) (bytes lines : Nat) (p : Position) :
    s.error (p.shift bytes lines) = (s.error p).mapSpan (Span.shift bytes lines) := by
  simp only [error, Position.after_shift, Span.between_shift, LexError.mapSpan]

namespace Scan

open Lexeme

/-- A scan at another place. -/
def mapSpan (f : Span → Span) (s : Scan) : Scan :=
  ⟨s.tokens.map (Token.mapSpan f), s.comments.map f⟩

/-- Two scans one behind the other, of which only the second keeps its end token. -/
def append (s s' : Scan) : Scan :=
  ⟨s.tokens.dropLast ++ s'.tokens, s.comments ++ s'.comments⟩

theorem filterMap_token?_map (f : Span → Span) (pieces : List (LexemeKind × Span)) :
    (pieces.map fun x => (x.1, f x.2)).filterMap token? =
      (pieces.filterMap token?).map (Token.mapSpan f) := by
  rw [List.filterMap_map, List.map_filterMap]
  refine List.filterMap_congr fun x _ => ?_
  obtain ⟨kind, span⟩ := x
  cases kind <;> rfl

theorem filterMap_comment?_map (f : Span → Span) (pieces : List (LexemeKind × Span)) :
    (pieces.map fun x => (x.1, f x.2)).filterMap comment? =
      (pieces.filterMap comment?).map f := by
  rw [List.filterMap_map, List.map_filterMap]
  refine List.filterMap_congr fun x _ => ?_
  obtain ⟨kind, span⟩ := x
  cases kind <;> rfl

section Behind
variable {source : String} {ls : List Lexeme} (h : texts ls = source.toList) (later : List Lexeme)
include h

theorem placed_append_newline : ∃ span, placed .start (ls ++ newline :: later) =
    placed .start ls ++ (LexemeKind.blank, span) ::
      (placed .start later).map fun x => (x.1, x.2.behind source) := by
  have hnewline : ∀ p : Position, placed p (newline :: later) =
      (LexemeKind.blank, .between p (p.after ['\n'])) :: placed (p.after ['\n']) later :=
    fun p => placed_cons p newline later
  have hshift := placed_shift (source.utf8ByteSize + 1) (source.toList.count '\n' + 1) .start later
  rw [placed_append, h, hnewline, Position.after_newline, hshift]
  exact ⟨_, rfl⟩

theorem after_texts_newline : Position.start.after (texts (ls ++ newline :: later)) =
    (Position.start.after (texts later)).shift (source.utf8ByteSize + 1)
      (source.toList.count '\n' + 1) := by
  rw [texts_append, texts_cons, h, Position.after_append, Position.after_append]
  show ((Position.start.after source.toList).after ['\n']).after (texts later) = _
  rw [Position.after_newline, Position.after_shift]

/-- The scan of lexemes that stand behind those of a text and a line feed. -/
theorem ofLexemes_append_newline : ofLexemes (ls ++ newline :: later) =
    (ofLexemes ls).append ((ofLexemes later).mapSpan (.behind source)) := by
  obtain ⟨span, hplaced⟩ := placed_append_newline h later
  simp only [ofLexemes, hplaced, after_texts_newline h later, append, mapSpan,
    List.filterMap_append, List.filterMap_cons, token?, comment?, filterMap_token?_map,
    filterMap_comment?_map, List.map_append, List.map_cons, List.map_nil, List.dropLast_concat,
    List.append_assoc]
  rfl

theorem error_append_newline (stuck : Stuck) :
    stuck.error (Position.start.after (texts (ls ++ newline :: later))) =
      (stuck.error (Position.start.after (texts later))).mapSpan (.behind source) := by
  rw [after_texts_newline h later, Stuck.error_shift]
  rfl

end Behind

/-- **A text behind another one is scanned as if it stood alone**, further down. -/
theorem ofText_append_newline {a : String} {scan : Scan} (h : ofText a = .ok scan) (b : String) :
    ofText (a ++ "\n" ++ b) =
      ((ofText b).map fun later => scan.append (later.mapSpan (.behind a))).mapError
        (LexError.mapSpan (.behind a)) := by
  obtain ⟨ls, hl, rfl⟩ := ofText_eq_ok_iff.mp h
  have htexts := hl.texts_eq
  have hcut := cut_append_newline (cut_eq_iff.mpr hl) b.toList
  have hsource : (a ++ "\n" ++ b).toList = a.toList ++ '\n' :: b.toList := by simp
  unfold ofText
  rw [hsource, hcut]
  generalize cut b.toList = r
  obtain ⟨later, stuck⟩ := r
  cases stuck with
  | none => exact congrArg Except.ok (ofLexemes_append_newline htexts later)
  | some stuck => exact congrArg Except.error (error_append_newline htexts later stuck)

end Scan

end Idl
