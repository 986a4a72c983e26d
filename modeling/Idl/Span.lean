/-! # Positions and spans

A *position* is a place between two characters of a text: how many bytes of its UTF-8 form stand
before it, and the line and the column of the character that follows, both counted from one. A
column counts characters, and only a line feed starts a new line. A *span* is a range of bytes
together with the line and the column where it starts.

* `Position.after`: the position reached by walking over some characters;
  `after_append`: a walk can be cut anywhere.
* `Span.between`: the span from one position to a later one.
* `Span.merge`: the range that covers two spans; it starts where the earlier one starts. -/

namespace Idl

/-- A place in a text, with its line and column counted from one. -/
structure Position where
  offset : Nat
  line : Nat
  column : Nat
deriving DecidableEq, Repr

namespace Position

/-- The position before the first character. -/
def start : Position := ⟨0, 1, 1⟩

/-- The position behind one character. -/
def next (p : Position) (c : Char) : Position :=
  if c = '\n' then ⟨p.offset + c.utf8Size, p.line + 1, 1⟩
  else ⟨p.offset + c.utf8Size, p.line, p.column + 1⟩

/-- The position behind a run of characters. -/
def after (p : Position) (text : List Char) : Position :=
  text.foldl next p

@[simp] theorem after_nil (p : Position) : p.after [] = p := rfl

@[simp] theorem after_cons (p : Position) (c : Char) (text : List Char) :
    p.after (c :: text) = (p.next c).after text := rfl

/-- A walk over a text can be cut anywhere. -/
@[simp] theorem after_append (p : Position) (xs ys : List Char) :
    p.after (xs ++ ys) = (p.after xs).after ys := by
  simp [after]

theorem offset_next (p : Position) (c : Char) : (p.next c).offset = p.offset + c.utf8Size := by
  unfold next; split <;> rfl

theorem offset_le_after (p : Position) (text : List Char) : p.offset ≤ (p.after text).offset := by
  induction text generalizing p with
  | nil => simp
  | cons c text ih =>
    have h := ih (p.next c)
    rw [offset_next] at h
    rw [after_cons]
    omega

end Position

/-- A range of bytes, from `start` up to `stop`, with the line and the column of its start. -/
structure Span where
  start : Nat
  stop : Nat
  line : Nat
  column : Nat
deriving DecidableEq, Repr

namespace Span

/-- The span between two positions of one text. -/
def between (p q : Position) : Span := ⟨p.offset, q.offset, p.line, p.column⟩

/-- The empty span at a position. -/
def point (p : Position) : Span := between p p

/-- **The range that covers two spans.** Its line and column are those of the one that starts
first, the left one if both start together. -/
def merge (a b : Span) : Span :=
  let first := if a.start ≤ b.start then a else b
  ⟨first.start, max a.stop b.stop, first.line, first.column⟩

/-- The number of bytes in a span; a span that ends before it starts has none. -/
def length (s : Span) : Nat := s.stop - s.start

/-- Whether a span holds no byte. -/
def isEmpty (s : Span) : Bool := s.stop ≤ s.start

/-- A span is written as its line and column. -/
def text (s : Span) : String := s.line.repr ++ ":" ++ s.column.repr

theorem start_merge (a b : Span) : (a.merge b).start = min a.start b.start := by
  unfold merge; dsimp only; split <;> omega

theorem stop_merge (a b : Span) : (a.merge b).stop = max a.stop b.stop := rfl

theorem isEmpty_iff_length (s : Span) : s.isEmpty = true ↔ s.length = 0 := by
  simp only [isEmpty, length, decide_eq_true_eq]; omega

/-- Two spans in order, the second from where the first began or later, merge into the span from
the start of the first to the end of the second. -/
theorem merge_of_le {a b : Span} (hs : a.start ≤ b.start) (he : a.stop ≤ b.stop) :
    a.merge b = ⟨a.start, b.stop, a.line, a.column⟩ := by
  simp [merge, hs, Nat.max_eq_right he]

end Span

end Idl
