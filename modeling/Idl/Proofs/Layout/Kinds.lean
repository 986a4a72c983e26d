import Idl.Layout
import Idl.Proofs.Lexeme.Yields
import Idl.Proofs.Model.WellFormed

/-! # The tokens of a layout

The canonical text of a program is made of lines, and each line is cut by itself: it ends in a line
feed, which ends every token. So the tokens of the text are those of its lines, one line behind the
other, and they depend on the layout only in the modifier that makes no difference.

* `Layout.kinds`: the tokens that a program is written with.
* `Layout.writes_lines`: the lines of a well-formed program yield these tokens.
* `Layout.ofText_format`: the scan of its text holds them, and no comment. -/

namespace Idl

open Lexeme

/-! ### The tokens of a program -/

/-- The token of a literal. -/
def AnnotationValue.kind : AnnotationValue → TokenKind
  | .string value => .string value
  | .number spelling => .number spelling
  | .word name => .identifier name

/-- The tokens of an annotation. -/
def Annotation.kinds (a : Annotation) : List TokenKind :=
  .punctuation .atSign :: .identifier a.name ::
    match a.value with
    | some value => [.punctuation .openParen, value.kind, .punctuation .closeParen]
    | none => []

/-- The tokens of a parameter. -/
def Parameter.kinds (p : Parameter) : List TokenKind := [.identifier p.type, .identifier p.name]

/-- The tokens of parameters with commas between them. -/
def Parameter.listKinds (ps : List Parameter) : List TokenKind :=
  [.punctuation .comma].intercalate (ps.map Parameter.kinds)

/-- The tokens of a method without its annotations. -/
def Method.kinds (m : Method) : List TokenKind :=
  .identifier m.returnType :: .identifier m.name :: .punctuation .openParen ::
    (Parameter.listKinds m.parameters ++ [.punctuation .closeParen, .punctuation .semicolon])

namespace Layout

/-- The token of a modifier, where it is written. -/
def modifierKinds (l : Layout) (v : Visibility) : List TokenKind :=
  if v ≠ .readWrite ∨ l.explicitReadWrite then [.keyword v.keyword] else []

/-- The tokens of a member without its annotations. -/
def bareMemberKinds (l : Layout) : Member → List TokenKind
  | .attribute a => l.modifierKinds a.visibility ++
      [.identifier a.type, .identifier a.name, .punctuation .semicolon]
  | .method m => m.kinds

/-- The tokens of a member. -/
def memberKinds (l : Layout) (m : Member) : List TokenKind :=
  (memberAnnotations m).flatMap Annotation.kinds ++ l.bareMemberKinds m

/-- The tokens of a block: its keyword, its name, and what stands between its braces. -/
def blockKinds (word : Keyword) (name : String) (body : List TokenKind) : List TokenKind :=
  .keyword word :: .identifier name :: .punctuation .openBrace ::
    (body ++ [.punctuation .closeBrace])

/-- The tokens of an interface. -/
def interfaceKinds (l : Layout) (i : Interface) : List TokenKind :=
  i.annotations.flatMap Annotation.kinds ++
    blockKinds .interface i.name (i.members.flatMap l.memberKinds)

/-- The tokens of a module. -/
def moduleKinds (l : Layout) (m : Module) : List TokenKind :=
  m.annotations.flatMap Annotation.kinds ++
    blockKinds .module m.name (m.interfaces.flatMap l.interfaceKinds)

/-- **The tokens that a program is written with.** -/
def kinds (l : Layout) (program : List Module) : List TokenKind := program.flatMap l.moduleKinds

end Layout

/-! ### Names and literals -/

/-- A name in front of a character that ends it. -/
theorem Lexeme.Yields.name {c : Char} {tail : List Char} {ks : List TokenKind}
    (h : Yields (c :: tail) ks) (hc : isWordPart c = false) {s : String} (hs : IsName s) :
    Yields (s.toList ++ c :: tail) (.identifier s :: ks) := by
  rw [← hs.wordKind_eq]
  exact h.word hc hs.1

theorem Lexeme.Yields.keyword {c : Char} {tail : List Char} {ks : List TokenKind}
    (h : Yields (c :: tail) ks) (hc : isWordPart c = false) (k : Keyword) :
    Yields (k.spelling.toList ++ c :: tail) (.keyword k :: ks) := by
  rw [← wordKind_keyword k]
  exact h.word hc (word_keyword k)

/-- A literal in front of its closing parenthesis. -/
theorem AnnotationValue.yields_text {v : AnnotationValue} (hv : v.WellFormed) {tail : List Char}
    {ks : List TokenKind} (h : Yields (')' :: tail) ks) :
    Yields (v.text.toList ++ ')' :: tail) (v.kind :: ks) := by
  cases v with
  | string value => exact h.quote value
  | number spelling =>
    have hn := h.number (by decide) hv
    rwa [String.ofList_toList] at hn
  | word name => exact h.name (by decide) hv

/-- An annotation in front of a character that ends it. -/
theorem Annotation.yields_front {a : Annotation} (ha : a.WellFormed) {c : Char} {tail : List Char}
    {ks : List TokenKind} (hc : isWordPart c = false) (h : Yields (c :: tail) ks) :
    Yields (a.text.toList ++ c :: tail) (a.kinds ++ ks) := by
  obtain ⟨name, value, span⟩ := a
  cases value with
  | none =>
    have hn := (h.name hc ha.name).mark .atSign
    simpa [Punctuation.char, Annotation.text, Annotation.kinds] using hn
  | some v =>
    have hv := v.yields_text (ha.value v rfl) (h.mark .closeParen)
    have hn := ((hv.mark .openParen).name (by decide) ha.name).mark .atSign
    simpa [Punctuation.char, Annotation.text, Annotation.kinds] using hn

theorem Annotation.yields_text {a : Annotation} (ha : a.WellFormed) :
    Yields (a.text.toList ++ ['\n']) a.kinds := by
  have hend : Yields ['\n'] [] := yields_nil.blank rfl
  simpa using a.yields_front ha (by decide) hend

theorem Parameter.yields_text {p : Parameter} (hp : p.WellFormed) {c : Char} {tail : List Char}
    {ks : List TokenKind} (hc : isWordPart c = false) (h : Yields (c :: tail) ks) :
    Yields (p.text.toList ++ c :: tail) (p.kinds ++ ks) := by
  have hn := ((h.name hc hp.name).blank (c := ' ') rfl).name (by decide) hp.type
  simpa [Parameter.text, Parameter.kinds] using hn

/-- Parameters in front of their closing parenthesis. -/
theorem Parameter.yields_list {ps : List Parameter} (hps : ∀ p ∈ ps, p.WellFormed)
    {tail : List Char} {ks : List TokenKind} (h : Yields (')' :: tail) ks) :
    Yields ((String.intercalate ", " (ps.map Parameter.text)).toList ++ ')' :: tail)
      (Parameter.listKinds ps ++ ks) := by
  induction ps with
  | nil => simpa [Parameter.listKinds] using h
  | cons p ps ih =>
    obtain ⟨hp, hlater⟩ := List.forall_mem_cons.mp hps
    cases ps with
    | nil => simpa [Parameter.listKinds] using Parameter.yields_text hp (by decide) h
    | cons q ps =>
      have hcomma := ((ih hlater).blank (c := ' ') rfl).mark .comma
      have hone := Parameter.yields_text hp (by decide) hcomma
      simpa [Parameter.listKinds, String.intercalate_cons_cons, Punctuation.char] using hone

/-- A method up to its closing parenthesis. -/
theorem Method.yields_front {m : Method} (hm : m.WellFormed) {tail : List Char}
    {ks : List TokenKind} (h : Yields tail ks) :
    Yields (m.text.toList ++ tail) (.identifier m.returnType :: .identifier m.name ::
      .punctuation .openParen :: (Parameter.listKinds m.parameters ++
        .punctuation .closeParen :: ks)) := by
  have hps := (Parameter.yields_list hm.parameters (h.mark .closeParen)).mark .openParen
  have hn := ((hps.name (by decide) hm.name).blank (c := ' ') rfl).name (by decide) hm.returnType
  simpa [Method.text, Punctuation.char] using hn

theorem Method.yields_text {m : Method} (hm : m.WellFormed) :
    Yields ((m.text ++ ";").toList ++ ['\n']) m.kinds := by
  have hend := (yields_nil.blank (c := '\n') rfl).mark .semicolon
  simpa [Method.kinds, Punctuation.char] using m.yields_front hm hend

namespace Layout

theorem yields_modifier (l : Layout) (v : Visibility) {tail : List Char} {ks : List TokenKind}
    (h : Yields tail ks) :
    Yields ((l.modifierText v).toList ++ tail) (l.modifierKinds v ++ ks) := by
  unfold modifierText modifierKinds
  split
  · have hk := (h.blank (c := ' ') rfl).keyword (by decide) v.keyword
    simpa [Visibility.text] using hk
  · exact h

theorem yields_member (l : Layout) {m : Member} (hm : m.WellFormed) :
    Yields ((l.memberText m).toList ++ ['\n']) (l.bareMemberKinds m) := by
  obtain a | b := m
  · have hend := (yields_nil.blank (c := '\n') rfl).mark .semicolon
    have hn := ((hend.name (by decide) hm.name).blank (c := ' ') rfl).name (by decide) hm.type
    simpa [memberText, bareMemberKinds, Punctuation.char] using l.yields_modifier a.visibility hn
  · exact Method.yields_text hm

/-! ### Lines -/

/-- Lines that yield some tokens. -/
def Writes (l : Layout) (lines : List Line) (ks : List TokenKind) : Prop :=
  Yields (l.render lines).toList ks

theorem writes_nil (l : Layout) : l.Writes [] [] := yields_nil

theorem Writes.append {l : Layout} {xs ys : List Line} {ks ks' : List TokenKind}
    (h : l.Writes xs ks) (h' : l.Writes ys ks') : l.Writes (xs ++ ys) (ks ++ ks') := by
  have ha := Yields.append h h'
  rw [toList_render, toList_render, ← List.flatMap_append, ← toList_render] at ha
  exact ha

/-- Indentation and the end of the line yield nothing. -/
theorem writes_entry {l : Layout} {text : String} {ks : List TokenKind} (depth : Nat)
    (h : Yields (text.toList ++ ['\n']) ks) : l.Writes [.entry depth text] ks := by
  have hi := h.blanks (depth * l.indentWidth)
  simpa [Writes, toList_render, lineText] using hi

theorem writes_blanks (l : Layout) (n : Nat) : l.Writes (List.replicate n .blank) [] := by
  induction n with
  | zero => exact l.writes_nil
  | succ n ih =>
    have hone : l.Writes [.blank] [] := by
      simpa [Writes, toList_render, lineText] using yields_nil.blank (c := '\n') rfl
    exact hone.append ih

theorem writes_flatMap {α : Type} {l : Layout} {lines : α → List Line} {ks : α → List TokenKind}
    {as : List α} (h : ∀ a ∈ as, l.Writes (lines a) (ks a)) :
    l.Writes (as.flatMap lines) (as.flatMap ks) := by
  have hy := yields_flatMap h
  simp only [toList_render, ← List.flatMap_assoc] at hy
  rwa [← toList_render] at hy

theorem writes_annotations (l : Layout) (depth : Nat) {annotations : List Annotation}
    (h : ∀ a ∈ annotations, a.WellFormed) :
    l.Writes (annotationLines depth annotations) (annotations.flatMap Annotation.kinds) := by
  have hw : l.Writes (annotations.flatMap fun a => [.entry depth a.text])
      (annotations.flatMap Annotation.kinds) :=
    writes_flatMap fun a ha => writes_entry depth <| Annotation.yields_text (h a ha)
  rwa [← List.map_eq_flatMap] at hw

/-- A block yields its heading and its body between braces, also if it has no body. -/
theorem writes_block {l : Layout} {word : Keyword} {name : String} {body : List Line}
    {ks : List TokenKind} (depth : Nat) (hn : IsName name) (hb : l.Writes body ks) :
    l.Writes (block depth (word.spelling ++ " " ++ name) body) (blockKinds word name ks) := by
  have hend : Yields ['\n'] [] := yields_nil.blank rfl
  have hheading : ∀ {tail : List Char} {ks : List TokenKind}, Yields tail ks →
      Yields (word.spelling.toList ++ ' ' :: (name.toList ++ ' ' :: '{' :: tail))
        (.keyword word :: .identifier name :: .punctuation .openBrace :: ks) := by
    intro tail ks ht
    have hname := ((ht.mark .openBrace).blank (c := ' ') rfl).name (by decide) hn
    exact (hname.blank (c := ' ') rfl).keyword (by decide) word
  unfold block
  cases body with
  | nil =>
    obtain rfl : ks = [] := eq_nil_of_yields_nil hb
    have ht := hheading (hend.mark .closeBrace)
    exact writes_entry depth (by simpa [blockKinds, Punctuation.char] using ht)
  | cons line body =>
    have hfirst : l.Writes [.entry depth (word.spelling ++ " " ++ name ++ " \x7b")] _ :=
      writes_entry depth (by simpa using hheading hend)
    have hlast : l.Writes [.entry depth "\x7d"] _ :=
      writes_entry depth (by simpa [Punctuation.char] using hend.mark .closeBrace)
    exact hfirst.append (hb.append hlast)

/-- Blank lines between blocks yield nothing. -/
theorem writes_spaced {α : Type} {l : Layout} {lines : α → List Line} {ks : α → List TokenKind}
    {as : List α} (h : ∀ a ∈ as, l.Writes (lines a) (ks a)) :
    l.Writes (l.spaced (as.map lines)) (as.flatMap ks) := by
  induction as with
  | nil => exact l.writes_nil
  | cons a as ih =>
    obtain ⟨ha, has⟩ := List.forall_mem_cons.mp h
    cases as with
    | nil => simpa [spaced] using ha
    | cons b as =>
      have hw := (ha.append (l.writes_blanks l.blankLines)).append (ih has)
      simpa [spaced] using hw

/-! ### Declarations -/

theorem writes_member (l : Layout) (depth : Nat) {m : Member} (hm : m.WellFormed) :
    l.Writes (l.memberLines depth m) (l.memberKinds m) := by
  have ha : ∀ a ∈ memberAnnotations m, a.WellFormed := by
    obtain a | b := m
    · exact hm.annotations
    · exact hm.annotations
  exact (l.writes_annotations depth ha).append (writes_entry depth (l.yields_member hm))

theorem writes_interface (l : Layout) (depth : Nat) {i : Interface} (hi : i.WellFormed) :
    l.Writes (l.interfaceLines depth i) (l.interfaceKinds i) := by
  have hm : l.Writes (i.members.flatMap (l.memberLines (depth + 1)))
      (i.members.flatMap l.memberKinds) :=
    writes_flatMap fun m hm => l.writes_member (depth + 1) (hi.member hm)
  exact (l.writes_annotations depth hi.annotations).append (writes_block depth hi.name hm)

theorem writes_module (l : Layout) (depth : Nat) {m : Module} (hm : m.WellFormed) :
    l.Writes (l.moduleLines depth m) (l.moduleKinds m) := by
  have hi : l.Writes (l.spaced (m.interfaces.map (l.interfaceLines (depth + 1))))
      (m.interfaces.flatMap l.interfaceKinds) :=
    writes_spaced fun i hi => l.writes_interface (depth + 1) (hm.interfaces i hi)
  exact (l.writes_annotations depth hm.annotations).append (writes_block depth hm.name hi)

/-- **The lines of a program yield its tokens.** -/
theorem writes_lines (l : Layout) {program : List Module} (h : ∀ m ∈ program, m.WellFormed) :
    l.Writes (l.lines program) (l.kinds program) :=
  writes_spaced fun m hm => l.writes_module 0 (h m hm)

/-- **The scan of the text of a program holds its tokens**, and no comment. -/
theorem ofText_format (l : Layout) {program : List Module} (h : ∀ m ∈ program, m.WellFormed) :
    ∃ scan, Scan.ofText (l.format program) = .ok scan ∧
      scan.tokens.map Token.kind = l.kinds program ++ [.endOfInput] ∧ scan.comments = [] :=
  Scan.ofText_of_yields (l.writes_lines h)

end Layout

end Idl
