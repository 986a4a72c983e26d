import Idl.Lexeme

/-! # Classes of lexemes

The texts that lexemes can have, class by class, and what each stands for: one blank character; a
comment from `//` on that stays on its line; a comment from `/*` on with its first `*/` at its end;
a quoted text with six escapes on one line; a number; a word, which is a keyword if it spells one;
and a mark of one character. The classes say nothing about what follows a lexeme.

* `spelled_of_first`: the lexeme at the front of a text is of its class.
* `first_number`, `first_word`, …: a text of a class is the lexeme at the front of every text that
  begins with it and does not go on with characters that belong to it.
* `exists_first_of_spelled`: where a text of a class stands in front, there is a lexeme, and it is
  at least as long. -/

namespace Idl.Lexeme

open Text.Quoted (escapes)

/-! ### Classes of characters -/

theorem isBlank_iff {c : Char} :
    isBlank c = true ↔ c = ' ' ∨ c = '\t' ∨ c = '\r' ∨ c = '\n' := by
  simp [isBlank, or_assoc]

theorem isDigit_iff {c : Char} : c.isDigit = true ↔ '0' ≤ c ∧ c ≤ '9' :=
  Bool.and_eq_true_iff.trans (and_congr decide_eq_true_iff decide_eq_true_iff)

theorem isAlpha_iff {c : Char} :
    c.isAlpha = true ↔ ('A' ≤ c ∧ c ≤ 'Z') ∨ ('a' ≤ c ∧ c ≤ 'z') := by
  have hupper : c.isUpper = true ↔ 'A' ≤ c ∧ c ≤ 'Z' := decide_eq_true_iff
  have hlower : c.isLower = true ↔ 'a' ≤ c ∧ c ≤ 'z' :=
    Bool.and_eq_true_iff.trans (and_congr decide_eq_true_iff decide_eq_true_iff)
  exact Bool.or_eq_true_iff.trans (or_congr hupper hlower)

theorem isWordStart_iff {c : Char} :
    isWordStart c = true ↔ ('A' ≤ c ∧ c ≤ 'Z') ∨ ('a' ≤ c ∧ c ≤ 'z') ∨ c = '_' := by
  rw [isWordStart, Bool.or_eq_true, isAlpha_iff, decide_eq_true_iff, or_assoc]

theorem isWordPart_iff {c : Char} :
    isWordPart c = true ↔
      ('A' ≤ c ∧ c ≤ 'Z') ∨ ('a' ≤ c ∧ c ≤ 'z') ∨ ('0' ≤ c ∧ c ≤ '9') ∨ c = '_' := by
  have halphanum : c.isAlphanum = (c.isAlpha || c.isDigit) := rfl
  rw [isWordPart, halphanum, Bool.or_eq_true, Bool.or_eq_true, isAlpha_iff, isDigit_iff,
    decide_eq_true_iff, or_assoc, or_assoc]

/-! ### Classes of texts -/

/-- At least one digit, and nothing else. -/
def Digits (text : List Char) : Prop := text ≠ [] ∧ ∀ c ∈ text, c.isDigit = true

/-- Digits, and possibly a dot and more digits. -/
inductive Numeral : List Char → Prop where
  | whole {ds : List Char} (hd : Digits ds) : Numeral ds
  | decimal {ds es : List Char} (hd : Digits ds) (he : Digits es) : Numeral (ds ++ '.' :: es)

/-- A numeral with a minus sign or without. -/
inductive Number : List Char → Prop where
  | plain {text : List Char} (h : Numeral text) : Number text
  | negative {text : List Char} (h : Numeral text) : Number ('-' :: text)

/-- A letter or an underscore, and then letters, digits and underscores. -/
def Word : List Char → Prop
  | [] => False
  | c :: rest => isWordStart c = true ∧ ∀ d ∈ rest, isWordPart d = true

instance : (text : List Char) → Decidable (Word text)
  | [] => isFalse id
  | c :: rest =>
    decidable_of_iff (isWordStart c = true ∧ rest.all isWordPart = true)
      (and_congr_right fun _ => List.all_eq_true)

/-- What can stand between quotes, and the text that it stands for. -/
inductive Quotable : List Char → List Char → Prop where
  | nil : Quotable [] []
  | plain {c : Char} {text value : List Char} (hq : c ≠ '"') (hb : c ≠ '\\') (hn : c ≠ '\n')
      (later : Quotable text value) : Quotable (c :: text) (c :: value)
  | escape {c e : Char} {text value : List Char} (he : (c, e) ∈ escapes)
      (later : Quotable text value) : Quotable ('\\' :: e :: text) (c :: value)

/-- **The texts of the lexemes of each kind.** -/
inductive Spelled : LexemeKind → List Char → Prop where
  | blank {c : Char} (h : isBlank c = true) : Spelled .blank [c]
  | lineComment {body : List Char} (h : ∀ c ∈ body, c ≠ '\n') :
      Spelled .comment ('/' :: '/' :: body)
  /-- The first `*/` behind the opening is the one at the end. -/
  | blockComment {body : List Char} (h : ¬ ['*', '/'] <:+: body ++ ['*']) :
      Spelled .comment ('/' :: '*' :: (body ++ ['*', '/']))
  | string {text value : List Char} (h : Quotable text value) :
      Spelled (.token (.string (String.ofList value))) ('"' :: (text ++ ['"']))
  | number {text : List Char} (h : Number text) :
      Spelled (.token (.number (String.ofList text))) text
  | keyword (k : Keyword) : Spelled (.token (.keyword k)) k.spelling.toList
  | identifier {text : List Char} (h : Word text) (hk : ∀ k : Keyword, text ≠ k.spelling.toList) :
      Spelled (.token (.identifier (String.ofList text))) text
  | mark (p : Punctuation) : Spelled (.token (.punctuation p)) [p.char]

/-! ### Runs of characters -/

theorem takeWhile_append_of_stop {p : Char → Bool} {text rest : List Char}
    (ht : ∀ c ∈ text, p c = true) (hr : ∀ c ∈ rest.head?, p c = false) :
    (text ++ rest).takeWhile p = text := by
  rw [List.takeWhile_append_of_pos ht]
  cases rest with
  | nil => simp
  | cons c rest => simp [hr c rfl]

theorem dropWhile_append_of_stop {p : Char → Bool} {text rest : List Char}
    (ht : ∀ c ∈ text, p c = true) (hr : ∀ c ∈ rest.head?, p c = false) :
    (text ++ rest).dropWhile p = rest := by
  rw [List.dropWhile_append_of_pos ht]
  cases rest with
  | nil => rfl
  | cons c rest => simp [hr c rfl]

theorem length_le_takeWhile {p : Char → Bool} {text : List Char} (ht : ∀ c ∈ text, p c = true)
    (rest : List Char) : text.length ≤ ((text ++ rest).takeWhile p).length := by
  rw [List.takeWhile_append_of_pos ht, List.length_append]
  omega

theorem of_mem_takeWhile {p : Char → Bool} {text : List Char} {c : Char}
    (h : c ∈ text.takeWhile p) : p c = true := by
  have ha := List.all_takeWhile (p := p) (l := text)
  exact List.all_eq_true.mp ha c h

/-! ### Quoted texts -/

section Quoted
open Text.Quoted

theorem read_of_quotable {text value : List Char} (h : Quotable text value) (rest : List Char) :
    read (text ++ '"' :: rest) = .closed (text ++ ['"']) value rest := by
  induction h with
  | nil => exact read_quote rest
  | @plain c text value hq hb hn _ ih =>
    have hr : read (c :: (text ++ '"' :: rest)) = (read (text ++ '"' :: rest)).push [c] c := by
      rw [read.eq_def]; simp [hq, hb, hn]
    rw [List.cons_append, hr, ih]
    simp [Reading.push]
  | @escape c e text value he _ ih =>
    rw [List.cons_append, List.cons_append, read_escape (of_mem_escapes _ he).2, ih]
    simp [Reading.push]

theorem quotable_of_read {input text value rest : List Char}
    (h : read input = .closed text value rest) :
    ∃ body, text = body ++ ['"'] ∧ Quotable body value := by
  fun_induction read input generalizing text value rest with
  | case1 => cases h
  | case2 => cases h; exact ⟨[], rfl, .nil⟩
  | case3 => cases h
  | case4 => cases h
  | case5 e tail c hc _ _ ih =>
    generalize hr : read tail = r at h
    cases r <;> simp only [Reading.push, reduceCtorEq, Reading.closed.injEq] at h
    obtain ⟨rfl, rfl, rfl⟩ := h
    obtain ⟨body, rfl, hb⟩ := ih hr
    exact ⟨'\\' :: e :: body, rfl, .escape (mem_of_ofLetter? hc) hb⟩
  | case6 => cases h
  | case7 c tail hq hn hb ih =>
    generalize hr : read tail = r at h
    cases r <;> simp only [Reading.push, reduceCtorEq, Reading.closed.injEq] at h
    obtain ⟨rfl, rfl, rfl⟩ := h
    obtain ⟨body, rfl, hbody⟩ := ih hr
    exact ⟨c :: body, rfl, .plain hq hb hn hbody⟩

end Quoted

/-! ### Comments -/

theorem not_infix_cons {c : Char} {body : List Char} :
    ¬ ['*', '/'] <:+: (c :: body) ++ ['*'] ↔
      ¬ (c = '*' ∧ body.head? = some '/') ∧ ¬ ['*', '/'] <:+: body ++ ['*'] := by
  rw [List.cons_append, List.infix_cons_iff, not_or]
  refine and_congr_left fun _ => not_congr ?_
  cases body with
  | nil => simp
  | cons d body => simp [List.cons_prefix_cons, eq_comm]

theorem commentBody_append {body : List Char} (h : ¬ ['*', '/'] <:+: body ++ ['*'])
    (rest : List Char) :
    commentBody (body ++ '*' :: '/' :: rest) = some (body ++ ['*', '/'], rest) := by
  induction body with
  | nil => simp [commentBody]
  | cons c body ih =>
    obtain ⟨hc, hb⟩ := not_infix_cons.mp h
    have hhead : ¬ (c = '*' ∧ (body ++ '*' :: '/' :: rest).head? = some '/') := by
      cases body with
      | nil => simp
      | cons d body => simpa using hc
    rw [List.cons_append, commentBody, if_neg hhead, ih hb]
    rfl

theorem not_infix_of_commentBody {input text rest : List Char}
    (h : commentBody input = some (text, rest)) :
    ∃ body, text = body ++ ['*', '/'] ∧ ¬ ['*', '/'] <:+: body ++ ['*'] := by
  induction input generalizing text with
  | nil => cases h
  | cons c cs ih =>
    unfold commentBody at h
    split at h
    · cases h
      exact ⟨[], rfl, by decide⟩
    · next hc =>
      obtain ⟨⟨t, r⟩, hb, he⟩ := Option.map_eq_some_iff.mp h
      obtain ⟨rfl, rfl⟩ := Prod.mk.inj he
      obtain ⟨body, rfl, hn⟩ := ih hb
      refine ⟨c :: body, rfl, not_infix_cons.mpr ⟨?_, hn⟩⟩
      have happ := eq_append_of_commentBody hb
      rintro ⟨rfl, hh⟩
      refine hc ⟨rfl, ?_⟩
      cases body with
      | nil => cases hh
      | cons d body => rw [happ]; exact hh

/-! ### Numbers -/

theorem isDigit_dot : Char.isDigit '.' = false := by decide

theorem numeral_whole {ds rest : List Char} (hd : ∀ c ∈ ds, c.isDigit = true)
    (hr : ∀ c ∈ rest.head?, c.isDigit = false ∧ c ≠ '.') : numeral (ds ++ rest) = (ds, rest) := by
  have ht := takeWhile_append_of_stop hd fun c hc => (hr c hc).1
  have hw := dropWhile_append_of_stop hd fun c hc => (hr c hc).1
  unfold numeral
  rw [ht, hw]
  cases rest with
  | nil => rfl
  | cons c rest =>
    have hc := (hr c rfl).2
    split
    · next heq => cases heq; exact absurd rfl hc
    · rfl

theorem numeral_decimal {ds es rest : List Char} (hd : ∀ c ∈ ds, c.isDigit = true)
    (he : Digits es) : numeral (ds ++ '.' :: (es ++ rest)) =
      (ds ++ '.' :: (es ++ rest).takeWhile Char.isDigit, (es ++ rest).dropWhile Char.isDigit) := by
  have hstop : ∀ c ∈ ('.' :: (es ++ rest)).head?, c.isDigit = false := by
    intro c hc
    cases hc
    exact isDigit_dot
  have ht := takeWhile_append_of_stop hd hstop
  have hw := dropWhile_append_of_stop hd hstop
  obtain ⟨hn, ha⟩ := he
  obtain ⟨e, es, rfl⟩ := List.exists_cons_of_ne_nil hn
  have hdig : e.isDigit = true := ha e (by simp)
  unfold numeral
  rw [ht, hw]
  simp [hdig]

theorem length_le_numeral {text : List Char} (h : Numeral text) (rest : List Char) :
    text.length ≤ (numeral (text ++ rest)).1.length := by
  cases h with
  | whole hd =>
    have hle := length_le_takeWhile hd.2 rest
    unfold numeral
    split
    · split <;> simp only [List.length_append] <;> omega
    · exact hle
  | @decimal ds es hd he =>
    have hle := length_le_takeWhile he.2 rest
    rw [List.append_assoc, List.cons_append, numeral_decimal hd.2 he]
    simp only [List.length_append, List.length_cons] at hle ⊢
    omega

theorem numeral_append_of_stop {text rest : List Char} (h : Numeral text)
    (hr : ∀ c ∈ rest.head?, c.isDigit = false ∧ c ≠ '.') :
    numeral (text ++ rest) = (text, rest) := by
  cases h with
  | whole hd => exact numeral_whole hd.2 hr
  | decimal hd he =>
    rw [List.append_assoc, List.cons_append, numeral_decimal hd.2 he,
      takeWhile_append_of_stop he.2 fun c hc => (hr c hc).1,
      dropWhile_append_of_stop he.2 fun c hc => (hr c hc).1]

theorem digits_takeWhile {c : Char} (h : c.isDigit = true) (rest : List Char) :
    Digits ((c :: rest).takeWhile Char.isDigit) :=
  ⟨by simp [h], fun _ hd => of_mem_takeWhile hd⟩

theorem numeral_numeral {c : Char} (h : c.isDigit = true) (rest : List Char) :
    Numeral (numeral (c :: rest)).1 := by
  unfold numeral
  split
  · next d tail _ =>
    split
    · next hd => exact .decimal (digits_takeWhile h rest) (digits_takeWhile hd tail)
    · exact .whole (digits_takeWhile h rest)
  · exact .whole (digits_takeWhile h rest)

theorem exists_cons_of_numeral {text : List Char} (h : Numeral text) :
    ∃ c cs, text = c :: cs ∧ c.isDigit = true := by
  have hdigits : ∀ ds, Digits ds → ∃ c cs, ds = c :: cs ∧ c.isDigit = true := by
    rintro ds ⟨hn, ha⟩
    obtain ⟨c, cs, rfl⟩ := List.exists_cons_of_ne_nil hn
    exact ⟨c, cs, rfl, ha c (by simp)⟩
  cases h with
  | whole hd => exact hdigits _ hd
  | decimal hd he =>
    obtain ⟨c, cs, rfl, hc⟩ := hdigits _ hd
    exact ⟨c, _, rfl, hc⟩

/-- A numeral starts with a digit and is all numeral. -/
theorem numeral_iff {text : List Char} :
    Numeral text ↔ text.head?.any Char.isDigit = true ∧ (numeral text).2 = [] := by
  constructor
  · intro h
    obtain ⟨c, cs, rfl, hc⟩ := exists_cons_of_numeral h
    have hn : numeral (c :: cs ++ []) = (c :: cs, []) := numeral_append_of_stop h (by simp)
    rw [List.append_nil] at hn
    exact ⟨by simpa using hc, by rw [hn]⟩
  · rintro ⟨hd, hr⟩
    cases text with
    | nil => simp at hd
    | cons c cs =>
      have hc : c.isDigit = true := by simpa using hd
      have ha := numeral_append (c :: cs)
      rw [hr, List.append_nil] at ha
      exact ha ▸ numeral_numeral hc cs

/-- A number is a numeral, or one behind a minus sign. -/
theorem number_iff {text : List Char} :
    Number text ↔ Numeral text ∨ text.head? = some '-' ∧ Numeral text.tail := by
  constructor
  · rintro (h | h)
    · exact .inl h
    · exact .inr ⟨rfl, h⟩
  · rintro (h | ⟨hs, h⟩)
    · exact .plain h
    · obtain ⟨rest, rfl⟩ := List.head?_eq_some_iff.mp hs
      exact .negative h

instance (text : List Char) : Decidable (Numeral text) := decidable_of_iff' _ numeral_iff

instance (text : List Char) : Decidable (Number text) := decidable_of_iff' _ number_iff

/-! ### Words -/

theorem word_keyword (k : Keyword) : Word k.spelling.toList := by
  cases k <;> decide +kernel

theorem wordKind_keyword (k : Keyword) : wordKind k.spelling.toList = .keyword k := by
  simp [wordKind, Keyword.ofText?_spelling]

theorem wordKind_identifier {text : List Char} (h : ∀ k : Keyword, text ≠ k.spelling.toList) :
    wordKind text = .identifier (String.ofList text) := by
  unfold wordKind
  split
  · next k hk =>
    have he := Keyword.ofText?_eq_some_iff.mp hk
    exact absurd (by rw [← he, String.toList_ofList]) (h k)
  · rfl

/-- A word is a keyword or an identifier. -/
theorem spelled_word {text : List Char} (h : Word text) :
    Spelled (.token (wordKind text)) text := by
  by_cases hk : ∃ k : Keyword, text = k.spelling.toList
  · obtain ⟨k, rfl⟩ := hk
    rw [wordKind_keyword]
    exact .keyword k
  · have hk' : ∀ k : Keyword, text ≠ k.spelling.toList := fun k he => hk ⟨k, he⟩
    rw [wordKind_identifier hk']
    exact .identifier h hk'

/-! ### The first character decides -/

theorem not_isDigit_of_not_isWordPart {c : Char} (h : isWordPart c = false) :
    c.isDigit = false := by
  refine Bool.eq_false_iff.mpr fun hd => Bool.eq_false_iff.mp h ?_
  exact isWordPart_iff.mpr (.inr (.inr (.inl (isDigit_iff.mp hd))))

theorem not_isDigit_of_isWordStart {c : Char} (h : isWordStart c = true) : c.isDigit = false := by
  refine Bool.eq_false_iff.mpr fun hd => ?_
  obtain ⟨-, hle⟩ := isDigit_iff.mp hd
  rcases isWordStart_iff.mp h with ⟨hge, -⟩ | ⟨hge, -⟩ | rfl
  · exact absurd (Char.le_trans hge hle) (by decide)
  · exact absurd (Char.le_trans hge hle) (by decide)
  · exact absurd hle (by decide)

/-- A letter or an underscore starts a word. -/
theorem first_of_wordStart {c : Char} (h : isWordStart c = true) (rest : List Char) :
    first c rest = .ok (word c rest) := by
  have hb : isBlank c = false := by
    refine Bool.eq_false_iff.mpr fun hb => ?_
    rcases isBlank_iff.mp hb with rfl | rfl | rfl | rfl <;> exact absurd h (by decide)
  have h1 : c ≠ '/' := by rintro rfl; exact absurd h (by decide)
  have h2 : c ≠ '"' := by rintro rfl; exact absurd h (by decide)
  have h3 : c ≠ '-' := by rintro rfl; exact absurd h (by decide)
  simp [first, hb, h1, h2, h3, not_isDigit_of_isWordStart h, h]

/-- A digit starts a number. -/
theorem first_of_digit {c : Char} (h : c.isDigit = true) (rest : List Char) :
    first c rest = .ok (number [] (c :: rest)) := by
  have hb : isBlank c = false := by
    refine Bool.eq_false_iff.mpr fun hb => ?_
    rcases isBlank_iff.mp hb with rfl | rfl | rfl | rfl <;> exact absurd h (by decide)
  have h1 : c ≠ '/' := by rintro rfl; exact absurd h (by decide)
  have h2 : c ≠ '"' := by rintro rfl; exact absurd h (by decide)
  have h3 : c ≠ '-' := by rintro rfl; exact absurd h (by decide)
  simp [first, hb, h1, h2, h3, h]

/-- A minus sign starts a number if a digit follows it. -/
theorem first_of_minus {text : List Char} (h : text.head?.any Char.isDigit = true) :
    first '-' text = .ok (number ['-'] text) := by
  have hf : first '-' text = signed text := rfl
  rw [hf, signed, if_pos h]

theorem first_blank {c : Char} (h : isBlank c = true) (rest : List Char) :
    first c rest = .ok (⟨.blank, [c]⟩, rest) := by
  simp [first, h]

theorem first_mark (p : Punctuation) (rest : List Char) :
    first p.char rest = .ok (⟨.token (.punctuation p), [p.char]⟩, rest) := by
  cases p <;> rfl

theorem first_slashes (rest : List Char) : first '/' ('/' :: rest) =
    .ok (⟨.comment, '/' :: '/' :: rest.takeWhile (· ≠ '\n')⟩, rest.dropWhile (· ≠ '\n')) := rfl

/-- A comment up to the end of its line. -/
theorem first_lineComment {body rest : List Char} (h : ∀ c ∈ body, c ≠ '\n')
    (hr : ∀ c ∈ rest.head?, c = '\n') :
    first '/' ('/' :: (body ++ rest)) = .ok (⟨.comment, '/' :: '/' :: body⟩, rest) := by
  have hb : ∀ c ∈ body, decide (c ≠ '\n') = true := by simpa using h
  have hs : ∀ c ∈ rest.head?, decide (c ≠ '\n') = false := by simpa using hr
  rw [first_slashes, takeWhile_append_of_stop hb hs, dropWhile_append_of_stop hb hs]

theorem first_blockComment {body : List Char} (h : ¬ ['*', '/'] <:+: body ++ ['*'])
    (rest : List Char) : first '/' ('*' :: (body ++ '*' :: '/' :: rest)) =
      .ok (⟨.comment, '/' :: '*' :: (body ++ ['*', '/'])⟩, rest) := by
  have hf : ∀ tail, first '/' tail = comment tail := fun _ => rfl
  rw [hf]
  simp [comment, commentBody_append h]

theorem first_string {text value : List Char} (h : Quotable text value) (rest : List Char) :
    first '"' (text ++ '"' :: rest) =
      .ok (⟨.token (.string (String.ofList value)), '"' :: (text ++ ['"'])⟩, rest) := by
  have hf : ∀ tail, first '"' tail = string tail := fun _ => rfl
  rw [hf, string, read_of_quotable h]

/-- A word in front of a text that does not go on with it. -/
theorem first_word {c : Char} {cs rest : List Char} (h : Word (c :: cs))
    (hr : ∀ d ∈ rest.head?, isWordPart d = false) :
    first c (cs ++ rest) = .ok (⟨.token (wordKind (c :: cs)), c :: cs⟩, rest) := by
  rw [first_of_wordStart h.1, word, takeWhile_append_of_stop h.2 hr,
    dropWhile_append_of_stop h.2 hr]

/-- A number in front of a text that does not go on with it. -/
theorem first_number {c : Char} {cs rest : List Char} (h : Number (c :: cs))
    (hr : ∀ d ∈ rest.head?, d.isDigit = false ∧ d ≠ '.') : first c (cs ++ rest) =
      .ok (⟨.token (.number (String.ofList (c :: cs))), c :: cs⟩, rest) := by
  cases h with
  | plain hn =>
    obtain ⟨d, ds, he, hd⟩ := exists_cons_of_numeral hn
    cases he
    rw [first_of_digit hd, number, ← List.cons_append, numeral_append_of_stop hn hr]
    rfl
  | negative hn =>
    obtain ⟨d, ds, rfl, hd⟩ := exists_cons_of_numeral hn
    rw [first_of_minus (by simp [hd]), number, numeral_append_of_stop hn hr]
    rfl

/-! ### The lexeme at the front and the classes -/

/-- **The lexeme at the front of a text is of its class.** -/
theorem spelled_of_first {c : Char} {input rest : List Char} {l : Lexeme}
    (h : first c input = .ok (l, rest)) : Spelled l.kind l.text := by
  unfold first at h
  split at h
  · next hb => cases h; exact .blank hb
  split at h
  · unfold comment at h
    split at h
    · cases h
      exact .lineComment fun c hc => by simpa using of_mem_takeWhile hc
    · split at h
      · next hb =>
        cases h
        obtain ⟨body, rfl, hn⟩ := not_infix_of_commentBody hb
        exact .blockComment hn
      · cases h
    · cases h
  split at h
  · unfold string at h
    split at h
    · next hr =>
      cases h
      obtain ⟨body, rfl, hq⟩ := quotable_of_read hr
      exact .string hq
    · cases h
    · cases h
  split at h
  · unfold signed at h
    split at h
    · next hd =>
      cases h
      cases input with
      | nil => cases hd
      | cons d input => exact .number (.negative (numeral_numeral hd input))
    · cases h
  split at h
  · next hd => cases h; exact .number (.plain (numeral_numeral hd input))
  split at h
  · next hw => cases h; exact spelled_word ⟨hw, fun d hd => of_mem_takeWhile hd⟩
  · unfold mark at h
    split at h
    · next p hp =>
      cases h
      obtain rfl := Punctuation.ofChar?_eq_some_iff.mp hp
      exact .mark p
    · cases h

theorem spelled_ne_nil {kind : LexemeKind} {text : List Char} (h : Spelled kind text) :
    text ≠ [] := by
  have hword : ∀ t, Word t → t ≠ [] := by
    rintro t ht rfl
    exact ht
  cases h with
  | number hn =>
    cases hn with
    | plain hm =>
      obtain ⟨c, cs, rfl, -⟩ := exists_cons_of_numeral hm
      simp
    | negative => simp
  | keyword k => exact hword _ (word_keyword k)
  | identifier hw => exact hword _ hw
  | _ => simp

/-- A text of a class, with nothing behind it, is its own lexeme. -/
theorem first_of_spelled {kind : LexemeKind} {c : Char} {cs : List Char}
    (h : Spelled kind (c :: cs)) : first c cs = .ok (⟨kind, c :: cs⟩, []) := by
  have hword : ∀ {t : List Char}, Word t → t = c :: cs →
      first c cs = .ok (⟨.token (wordKind (c :: cs)), c :: cs⟩, []) := by
    rintro t hw rfl
    have hf : first c (cs ++ []) = _ := first_word hw (by simp)
    rwa [List.append_nil] at hf
  generalize ht : c :: cs = text at h
  cases h with
  | blank hb => cases ht; exact first_blank hb []
  | lineComment hb =>
    cases ht
    have hf : first '/' ('/' :: (_ ++ [])) = _ := first_lineComment hb (by simp)
    rwa [List.append_nil] at hf
  | blockComment hb => cases ht; exact first_blockComment hb []
  | string hq => cases ht; exact first_string hq []
  | number hn =>
    subst ht
    have hf : first c (cs ++ []) = _ := first_number hn (by simp)
    rwa [List.append_nil] at hf
  | keyword k =>
    have hf := hword (word_keyword k) ht.symm
    rwa [ht, wordKind_keyword] at hf
  | identifier hw hk =>
    have hf := hword hw ht.symm
    rwa [ht, wordKind_identifier hk] at hf
  | mark p => cases ht; exact first_mark p []

/-- What a text of a class stands for is read off the text. -/
theorem kind_eq_of_spelled {kind kind' : LexemeKind} {text : List Char} (h : Spelled kind text)
    (h' : Spelled kind' text) : kind = kind' := by
  obtain ⟨c, cs, rfl⟩ := List.exists_cons_of_ne_nil (spelled_ne_nil h)
  have hf := first_of_spelled h
  rw [first_of_spelled h'] at hf
  cases hf
  rfl

/-- **Where a text of a class stands in front, there is a lexeme**, at least as long. -/
theorem exists_first_of_spelled {kind : LexemeKind} {c : Char} {cs : List Char}
    (h : Spelled kind (c :: cs)) (rest : List Char) :
    ∃ l r, first c (cs ++ rest) = .ok (l, r) ∧ (c :: cs).length ≤ l.text.length := by
  have hword : ∀ {t : List Char}, Word t → t = c :: cs →
      ∃ l r, first c (cs ++ rest) = .ok (l, r) ∧ (c :: cs).length ≤ l.text.length := by
    rintro t hw rfl
    refine ⟨_, _, first_of_wordStart hw.1 _, ?_⟩
    simpa [word] using length_le_takeWhile hw.2 rest
  generalize ht : c :: cs = text at h
  cases h with
  | blank hb => cases ht; exact ⟨_, _, first_blank hb _, Nat.le_refl _⟩
  | @lineComment body hb =>
    cases ht
    have hb' : ∀ c ∈ body, decide (c ≠ '\n') = true := by simpa using hb
    refine ⟨_, _, first_slashes _, ?_⟩
    simpa using length_le_takeWhile hb' rest
  | blockComment hb =>
    cases ht
    have hf := first_blockComment hb rest
    exact ⟨_, _, by simpa using hf, Nat.le_refl _⟩
  | string hq =>
    cases ht
    have hf := first_string hq rest
    exact ⟨_, _, by simpa using hf, Nat.le_refl _⟩
  | number hn =>
    subst ht
    cases hn with
    | plain hm =>
      obtain ⟨d, ds, he, hd⟩ := exists_cons_of_numeral hm
      cases he
      exact ⟨_, _, first_of_digit hd _, length_le_numeral hm rest⟩
    | negative hm =>
      obtain ⟨d, ds, rfl, hd⟩ := exists_cons_of_numeral hm
      refine ⟨_, _, first_of_minus (by simp [hd]), ?_⟩
      have hle := length_le_numeral hm rest
      simp only [List.length_cons, List.length_append, List.length_nil] at hle ⊢
      omega
  | keyword k =>
    rw [← ht]
    exact hword (word_keyword k) ht.symm
  | identifier hw hk =>
    rw [← ht]
    exact hword hw ht.symm
  | mark p => cases ht; exact ⟨_, _, first_mark p _, Nat.le_refl _⟩

end Idl.Lexeme
