import Idl.Text.CodePoints

/-! # Quoted text

A quoted text stands between two double quotes on one line. Six characters are written as a
backslash and a letter: the quote, the backslash, line feed, tab, carriage return and NUL. All other
characters stand for themselves.

In a message a text is *shown* so that every character can be told from its neighbours: beside the
six, those that cannot be seen or would melt into the character before them are written as their
code point in hexadecimal.

* `encode` writes a text, `read` reads one after its opening quote and reports how it ends.
* `read_encode`: what was written reads back, whatever follows.
* `eq_append_of_closed`: reading loses nothing.
* `ne_of_mem_encode`: a written text has no line feed, carriage return, tab or NUL in it. -/

namespace Idl.Text

namespace Quoted

/-- The characters that need a backslash, each with the letter that stands for it. -/
def escapes : List (Char × Char) :=
  [('"', '"'), ('\\', '\\'), ('\n', 'n'), ('\t', 't'), ('\r', 'r'), ('\x00', '0')]

/-- The letter that stands for a character behind a backslash, if the character needs one. -/
def letter? (c : Char) : Option Char := (escapes.find? fun pair => pair.1 = c).map Prod.snd

/-- The character that a letter behind a backslash stands for. -/
def ofLetter? (e : Char) : Option Char := (escapes.find? fun pair => pair.2 = e).map Prod.fst

/-- One character as it is written between quotes. -/
def encodeChar (c : Char) : List Char :=
  match letter? c with
  | some e => ['\\', e]
  | none => [c]

/-- A text as it is written between quotes. -/
def encode (value : List Char) : List Char := value.flatMap encodeChar

/-- A text with its quotes. -/
def quote (value : String) : String := "\"" ++ String.ofList (encode value.toList) ++ "\""

/-- What comes of reading a quoted text behind its opening quote. -/
inductive Reading where
  /-- The closing quote was found: the characters read, that quote included, the text they stand
  for, and what follows. -/
  | closed (text value rest : List Char)
  /-- The line or the input ended first, after these characters. -/
  | unclosed (text : List Char)
  /-- After these characters a backslash is followed by a letter that stands for nothing. -/
  | badEscape (before : List Char) (letter : Char)
deriving DecidableEq, Repr

/-- A reading that began some characters earlier, standing for one more character. -/
def Reading.push (text : List Char) (c : Char) : Reading → Reading
  | closed text' value rest => closed (text ++ text') (c :: value) rest
  | unclosed text' => unclosed (text ++ text')
  | badEscape before e => badEscape (text ++ before) e

/-- **Read up to the closing quote.** A backslash takes the next character with it, so an escaped
quote does not close the text, and a backslash before a line feed is a bad escape. -/
def read : List Char → Reading
  | [] => .unclosed []
  | c :: rest =>
    if c = '"' then .closed ['"'] [] rest
    else if c = '\n' then .unclosed []
    else if c = '\\' then
      match rest with
      | [] => .unclosed ['\\']
      | e :: rest =>
        match ofLetter? e with
        | some v => (read rest).push ['\\', e] v
        | none => .badEscape [] e
    else (read rest).push [c] c

/-! ### The two tables -/

theorem mem_of_letter? {c e : Char} (h : letter? c = some e) : (c, e) ∈ escapes := by
  obtain ⟨pair, hp, rfl⟩ := Option.map_eq_some_iff.mp h
  obtain rfl : pair.1 = c := by simpa using List.find?_some hp
  exact List.mem_of_find?_eq_some hp

theorem mem_of_ofLetter? {c e : Char} (h : ofLetter? e = some c) : (c, e) ∈ escapes := by
  obtain ⟨pair, hp, rfl⟩ := Option.map_eq_some_iff.mp h
  obtain rfl : pair.2 = e := by simpa using List.find?_some hp
  exact List.mem_of_find?_eq_some hp

/-- Each character has its own letter and each letter its own character. -/
theorem of_mem_escapes : ∀ pair ∈ escapes,
    letter? pair.1 = some pair.2 ∧ ofLetter? pair.2 = some pair.1 := by decide

theorem ofLetter?_of_letter? {c e : Char} (h : letter? c = some e) : ofLetter? e = some c :=
  (of_mem_escapes _ (mem_of_letter? h)).2

theorem letter?_eq_none_iff {c : Char} : letter? c = none ↔
    c ≠ '"' ∧ c ≠ '\\' ∧ c ≠ '\n' ∧ c ≠ '\t' ∧ c ≠ '\r' ∧ c ≠ '\x00' := by
  simp only [letter?, Option.map_eq_none_iff, List.find?_eq_none, escapes, List.mem_cons,
    List.not_mem_nil, or_false, decide_eq_true_eq, forall_eq_or_imp, forall_eq, ne_eq]
  grind

/-! ### Reading step by step -/

theorem read_escape {c e : Char} (h : ofLetter? e = some c) (rest : List Char) :
    read ('\\' :: e :: rest) = (read rest).push ['\\', e] c := by
  simp [read, h]

theorem read_plain {c : Char} (h : letter? c = none) (rest : List Char) :
    read (c :: rest) = (read rest).push [c] c := by
  obtain ⟨h1, h2, h3, -⟩ := letter?_eq_none_iff.mp h
  cases rest <;> simp [read, h1, h2, h3]

theorem read_quote (rest : List Char) : read ('"' :: rest) = .closed ['"'] [] rest := by
  cases rest <;> simp [read]

theorem read_encodeChar (c : Char) (rest : List Char) :
    read (encodeChar c ++ rest) = (read rest).push (encodeChar c) c := by
  unfold encodeChar
  split
  · next e h => exact read_escape (ofLetter?_of_letter? h) rest
  · next h => exact read_plain h rest

/-! ### Writing and reading -/

@[simp] theorem encode_nil : encode [] = [] := rfl

@[simp] theorem encode_cons (c : Char) (value : List Char) :
    encode (c :: value) = encodeChar c ++ encode value := rfl

/-- **What was written reads back**, whatever follows its closing quote. -/
theorem read_encode (value rest : List Char) :
    read (encode value ++ '"' :: rest) = .closed (encode value ++ ['"']) value rest := by
  induction value with
  | nil => exact read_quote rest
  | cons c value ih =>
    rw [encode_cons, List.append_assoc, read_encodeChar, ih]
    simp [Reading.push]

/-- **Reading loses nothing:** the characters read and the rest make up the input. -/
theorem eq_append_of_closed {input text value rest : List Char}
    (h : read input = .closed text value rest) : input = text ++ rest := by
  fun_induction read input generalizing text value rest with
  | case1 => cases h
  | case2 => cases h; rfl
  | case3 => cases h
  | case4 => cases h
  | case5 e tail _ _ c hc ih =>
    generalize hr : read tail = r at h
    cases r <;> simp only [Reading.push, reduceCtorEq, Reading.closed.injEq] at h
    obtain ⟨rfl, -, rfl⟩ := h
    simp [ih hr]
  | case6 => cases h
  | case7 c tail _ _ _ ih =>
    generalize hr : read tail = r at h
    cases r <;> simp only [Reading.push, reduceCtorEq, Reading.closed.injEq] at h
    obtain ⟨rfl, -, rfl⟩ := h
    simp [ih hr]

/-- A written text stays on its line and shows no tab, carriage return or NUL. -/
theorem ne_of_mem_encode {value : List Char} {x : Char} (h : x ∈ encode value) :
    x ≠ '\n' ∧ x ≠ '\t' ∧ x ≠ '\r' ∧ x ≠ '\x00' := by
  obtain ⟨c, -, hx⟩ := List.mem_flatMap.mp h
  unfold encodeChar at hx
  split at hx
  · next e he =>
    simp only [List.mem_cons, List.not_mem_nil, or_false] at hx
    rcases hx with rfl | rfl
    · decide
    · have hl : ∀ pair ∈ escapes,
          pair.2 ≠ '\n' ∧ pair.2 ≠ '\t' ∧ pair.2 ≠ '\r' ∧ pair.2 ≠ '\x00' := by decide
      exact hl _ (mem_of_letter? he)
  · next hc =>
    obtain ⟨-, -, h3, h4, h5, h6⟩ := letter?_eq_none_iff.mp hc
    rw [List.mem_singleton] at hx
    subst hx
    exact ⟨h3, h4, h5, h6⟩

end Quoted

/-! ### Shown texts -/

/-- Whether a character is shown by its code point: it melts into the character before it, is drawn
as nothing, or has no shape. -/
def isHidden (c : Char) : Bool :=
  extendingMarks.contains c || defaultIgnorable.contains c || unprintable.contains c

/-- A code point in lower-case hexadecimal, without leading zeros. -/
def codePoint (c : Char) : List Char :=
  ['\\', 'u', '\x7b'] ++ Nat.toDigits 16 c.toNat ++ ['\x7d']

/-- One character as it is shown. -/
def showChar (c : Char) : List Char :=
  match Quoted.letter? c with
  | some e => ['\\', e]
  | none => if isHidden c then codePoint c else [c]

/-- **A text as it is shown**, with its quotes. -/
def shown (value : String) : String :=
  "\"" ++ String.ofList (value.toList.flatMap showChar) ++ "\""

end Idl.Text
