import Idl.Text.CodePoints

/-! # Lines of a text

A line ends at a line feed, or at the end of the text. A carriage return just before the line feed
belongs to the line's end and not to the line; any other carriage return is a character like any
other. A line feed at the very end of the text starts no further line. Only the empty text has no
lines (`lines_eq_nil_iff`).

A *row* ends at a line feed too, but nothing else belongs to its end: rows are lines that keep a
carriage return before the line feed. Texts without line feeds, each with one behind it, are the
rows of what they make together (`rows_flatMap`).

A text is *trimmed* by dropping all white space at its end; a text that ends in anything else is
trimmed already (`trimEnd_eq_self`). -/

namespace Idl.Text

/-- **The lines of a text**, without their ends. -/
def lines : List Char → List (List Char)
  | [] => []
  | c :: rest =>
    if c = '\n' then [] :: lines rest
    else if c = '\r' ∧ rest.head? = some '\n' then lines rest
    else
      match lines rest with
      | [] => [[c]]
      | line :: others => (c :: line) :: others

@[simp] theorem lines_nil : lines [] = [] := rfl

@[simp] theorem lines_newline (rest : List Char) : lines ('\n' :: rest) = [] :: lines rest := by
  simp [lines]

/-- Only the empty text has no lines. -/
theorem lines_eq_nil_iff {text : List Char} : lines text = [] ↔ text = [] := by
  induction text with
  | nil => simp
  | cons c rest ih =>
    simp only [lines, reduceCtorEq, iff_false]
    repeat' split
    · simp
    · next h => intro hr; simp [ih.mp hr] at h
    · simp
    · simp

/-! ### Rows -/

/-- **The rows of a text**, without the line feeds. -/
def rows : List Char → List (List Char)
  | [] => []
  | c :: rest =>
    if c = '\n' then [] :: rows rest
    else
      match rows rest with
      | [] => [[c]]
      | row :: others => (c :: row) :: others

theorem rows_append {row : List Char} (h : '\n' ∉ row) (rest : List Char) :
    rows (row ++ '\n' :: rest) = row :: rows rest := by
  induction row with
  | nil => rw [List.nil_append, rows, if_pos rfl]
  | cons c row ih =>
    have hc : c ≠ '\n' := fun he => h (by simp [he])
    have hrow : '\n' ∉ row := fun hm => h (by simp [hm])
    rw [List.cons_append, rows, if_neg hc, ih hrow]

theorem rows_flatMap {rs : List (List Char)} (h : ∀ row ∈ rs, '\n' ∉ row) :
    rows (rs.flatMap (· ++ ['\n'])) = rs := by
  induction rs with
  | nil => rfl
  | cons row rs ih =>
    have hrow : '\n' ∉ row := h row (by simp)
    have hrs : ∀ r ∈ rs, '\n' ∉ r := fun r hr => h r (by simp [hr])
    rw [List.flatMap_cons, List.append_assoc, List.singleton_append, rows_append hrow, ih hrs]

/-! ### Trimmed texts -/

/-- **A text without the white space at its end.** -/
def trimEnd (text : String) : String :=
  String.ofList (text.toList.reverse.dropWhile whiteSpace.contains).reverse

/-- What does not end in white space is left as it is. -/
theorem trimEnd_eq_self {text : String}
    (h : ∀ c ∈ text.toList.getLast?, whiteSpace.contains c = false) : trimEnd text = text := by
  have hkept : text.toList.reverse.dropWhile whiteSpace.contains = text.toList.reverse := by
    rw [← List.head?_reverse] at h
    rcases hr : text.toList.reverse with _ | ⟨c, before⟩
    · rfl
    · rw [hr] at h
      have hc := h c rfl
      rw [List.dropWhile_cons, hc]
      rfl
  rw [trimEnd, hkept, List.reverse_reverse, String.ofList_toList]

theorem trimEnd_append_white {text white : String}
    (h : white.toList.all whiteSpace.contains = true) : trimEnd (text ++ white) = trimEnd text := by
  have hdrop : (white.toList.reverse ++ text.toList.reverse).dropWhile whiteSpace.contains =
      text.toList.reverse.dropWhile whiteSpace.contains :=
    List.dropWhile_append_of_pos fun c hc => List.all_eq_true.mp h c (List.mem_reverse.mp hc)
  rw [trimEnd, String.toList_append, List.reverse_append, hdrop, trimEnd]

/-- Whatever stands before a text that ends in no white space. -/
theorem trimEnd_append {before text : String} {c : Char} (hlast : text.toList.getLast? = some c)
    (hc : whiteSpace.contains c = false) : trimEnd (before ++ text) = before ++ text := by
  refine trimEnd_eq_self fun d hd => ?_
  rw [String.toList_append, List.getLast?_append, hlast, Option.some_or] at hd
  cases hd
  exact hc

end Idl.Text
