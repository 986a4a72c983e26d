import Idl.Proofs.Layout.Kinds

/-! # Lines and braces

A layout writes line after line, and each line is a text without blanks at its ends behind its
indentation (`Solid`). How deep a line is indented can be told from the braces before it: a line
stands inside as many blocks as are open, except that the line that closes a block stands one block
further out (`Fits`). And blank lines stand where a block has been closed and another begins, and
nowhere else (`Laid`).

* `Laid.append`: lines laid out one behind the other.
* `laid_block`, `laid_spaced`: blocks and what is between them.
* `laid_lines`: the lines of a well-formed program are laid out like this. -/

namespace Idl

open Lexeme

/-! ### Texts on one line -/

/-- A text on one line that neither begins nor ends in a blank. -/
structure Solid (text : List Char) : Prop where
  line : '\n' ∉ text
  first : ∃ c ∈ text.head?, isBlank c = false
  last : ∃ c ∈ text.getLast?, isBlank c = false

namespace Solid

theorem ne_nil {text : List Char} (h : Solid text) : text ≠ [] := by
  rintro rfl
  obtain ⟨c, hc, -⟩ := h.first
  cases hc

/-- Two texts with anything on their line between them. -/
theorem around {a m b : List Char} (ha : Solid a) (hm : '\n' ∉ m) (hb : Solid b) :
    Solid (a ++ (m ++ b)) := by
  obtain ⟨c, hc, hcb⟩ := ha.first
  obtain ⟨d, hd, hdb⟩ := hb.last
  refine ⟨?_, ⟨c, ?_, hcb⟩, ⟨d, ?_, hdb⟩⟩
  · simp [ha.line, hm, hb.line]
  · rw [List.head?_append_of_ne_nil _ ha.ne_nil]
    exact hc
  · rw [List.getLast?_append_of_ne_nil _ (by simp [hb.ne_nil]),
      List.getLast?_append_of_ne_nil _ hb.ne_nil]
    exact hd

theorem append {a b : List Char} (ha : Solid a) (hb : Solid b) : Solid (a ++ b) :=
  ha.around (m := []) (by simp) hb

theorem spaced {a b : List Char} (ha : Solid a) (hb : Solid b) : Solid (a ++ ' ' :: b) :=
  ha.around (m := [' ']) (by decide) hb

end Solid

theorem solid_of_forall {text : List Char} (hne : text ≠ [])
    (h : ∀ c ∈ text, isBlank c = false) : Solid text where
  line hm := absurd (h _ hm) (by decide)
  first := by
    obtain ⟨c, cs, rfl⟩ := List.exists_cons_of_ne_nil hne
    exact ⟨c, rfl, h c List.mem_cons_self⟩
  last := by
    have hl := List.getLast?_eq_some_getLast hne
    exact ⟨_, hl, h _ (List.getLast_mem hne)⟩

/-- A character is no blank if it has a property that no blank has. -/
theorem not_isBlank_of {p : Char → Bool} {c : Char} (h : p c = true)
    (hp : p ' ' = false ∧ p '\t' = false ∧ p '\r' = false ∧ p '\n' = false) :
    isBlank c = false := by
  refine Bool.eq_false_iff.mpr fun hb => ?_
  obtain ⟨h1, h2, h3, h4⟩ := hp
  rcases isBlank_iff.mp hb with rfl | rfl | rfl | rfl
  · exact absurd h (by simp [h1])
  · exact absurd h (by simp [h2])
  · exact absurd h (by simp [h3])
  · exact absurd h (by simp [h4])

theorem solid_mark {c : Char} (h : isBlank c = false) : Solid [c] :=
  solid_of_forall (by simp) (by simpa using h)

theorem solid_word {text : List Char} (h : Word text) : Solid text := by
  cases text with
  | nil => exact absurd h id
  | cons c cs =>
    refine solid_of_forall (by simp) fun d hd => ?_
    rcases List.mem_cons.mp hd with rfl | hd
    · exact not_isBlank_of h.1 (by decide)
    · exact not_isBlank_of (h.2 d hd) (by decide)

theorem solid_numeral {text : List Char} (h : Numeral text) : Solid text := by
  have hdigits : ∀ {ds : List Char}, Digits ds → Solid ds := fun hd =>
    solid_of_forall hd.1 fun c hc => not_isBlank_of (hd.2 c hc) (by decide)
  cases h with
  | whole hd => exact hdigits hd
  | decimal hd he => exact (hdigits hd).append ((solid_mark (by decide)).append (hdigits he))

theorem solid_number {text : List Char} (h : Number text) : Solid text := by
  cases h with
  | plain h => exact solid_numeral h
  | negative h => exact (solid_mark (by decide)).append (solid_numeral h)

theorem solid_quote (value : String) : Solid (Text.Quoted.quote value).toList := by
  have hquote : (Text.Quoted.quote value).toList =
      ['"'] ++ (Text.Quoted.encode value.toList ++ ['"']) := by
    simp [Text.Quoted.quote]
  have hmark : Solid ['"'] := solid_mark (by decide)
  rw [hquote]
  exact hmark.around (fun hm => (Text.Quoted.ne_of_mem_encode hm).1 rfl) hmark

/-! ### The texts of a layout -/

theorem AnnotationValue.solid_text {v : AnnotationValue} (h : v.WellFormed) :
    Solid v.text.toList := by
  cases v with
  | string value => exact solid_quote value
  | number spelling => exact solid_number h
  | word name => exact solid_word h.1

theorem Annotation.solid_text {a : Annotation} (h : a.WellFormed) : Solid a.text.toList := by
  have hname : Solid ('@' :: a.name.toList) :=
    (solid_mark (c := '@') (by decide)).append (solid_word h.name.1)
  obtain ⟨name, value, span⟩ := a
  cases value with
  | none => simpa [ Annotation.text] using hname
  | some v =>
    have hopen : Solid ['('] := solid_mark (by decide)
    have hclose : Solid [')'] := solid_mark (by decide)
    have hv := hopen.append ((AnnotationValue.solid_text (h.value v rfl)).append hclose)
    simpa [ Annotation.text] using hname.append hv

theorem Parameter.solid_text {p : Parameter} (h : p.WellFormed) : Solid p.text.toList := by
  simpa [Parameter.text] using (solid_word h.type.1).spaced (solid_word h.name.1)

theorem Parameter.line_list {ps : List Parameter} (h : ∀ p ∈ ps, p.WellFormed) :
    '\n' ∉ (String.intercalate ", " (ps.map Parameter.text)).toList := by
  induction ps with
  | nil => simp
  | cons p ps ih =>
    obtain ⟨hp, hps⟩ := List.forall_mem_cons.mp h
    have hline : '\n' ∉ p.text.toList := (Parameter.solid_text hp).line
    cases ps with
    | nil => simpa using hline
    | cons q ps =>
      have hlater := ih hps
      rw [List.map_cons, List.map_cons, String.intercalate_cons_cons, ← List.map_cons]
      simp only [String.toList_append, List.mem_append, not_or]
      exact ⟨⟨hline, by decide⟩, hlater⟩

theorem Method.solid_text {m : Method} (h : m.WellFormed) : Solid (m.text ++ ";").toList := by
  have hstart : Solid (m.returnType.toList ++ ' ' :: m.name.toList) :=
    (solid_word h.returnType.1).spaced (solid_word h.name.1)
  have hopen : Solid ['('] := solid_mark (by decide)
  have hend : Solid [')', ';'] :=
    (solid_mark (c := ')') (by decide)).append (solid_mark (c := ';') (by decide))
  have hparameters := hopen.around (Parameter.line_list h.parameters) hend
  simpa [Method.text] using hstart.append hparameters

namespace Layout

theorem solid_memberText (l : Layout) {m : Member} (h : m.WellFormed) :
    Solid (l.memberText m).toList := by
  obtain a | b := m
  · have hend : Solid (a.type.toList ++ ' ' :: (a.name.toList ++ [';'])) :=
      (solid_word h.type.1).spaced ((solid_word h.name.1).append (solid_mark (by decide)))
    by_cases hv : a.visibility ≠ .readWrite ∨ l.explicitReadWrite = true
    · have hkeyword := (solid_word (word_keyword a.visibility.keyword)).spaced hend
      simpa [memberText, modifierText, hv, Visibility.text] using hkeyword
    · simpa [memberText, modifierText, hv] using hend
  · exact Method.solid_text h

/-! ### Lines between blocks -/

/-- Whether some tokens end in the brace that closes a block. -/
def endsClosed (kinds : List TokenKind) : Bool := kinds.getLast? = some (.punctuation .closeBrace)

/-- **A line of some depth where `c` blocks are open**, and behind which `c'` are. The line that
begins with a closing brace stands one block further out. No line ends in a keyword, and one that
closes a block ends with that. -/
structure Fits (c depth : Nat) (text : String) (first : TokenKind) (later : List TokenKind)
    (c' : Nat) : Prop where
  yields : Yields (text.toList ++ ['\n']) (first :: later)
  solid : Solid text.toList
  depth_eq : c = depth + if first = .punctuation .closeBrace then 1 else 0
  braces : c + (first :: later).count (.punctuation .openBrace) =
    c' + (first :: later).count (.punctuation .closeBrace)
  last : ∀ word, (first :: later).getLast? ≠ some (.keyword word)
  closing : .punctuation .closeBrace ∉ (first :: later).dropLast

/-- **Lines that are laid out by their braces.** Before them `c` blocks are open, and it is known
whether the last token closed one; behind them likewise. Where a block was closed, the next line
closes another, or a block begins and blank lines stand before it. -/
inductive Laid (l : Layout) : Nat → Bool → List Line → Nat → Bool → Prop where
  | nil {c : Nat} {b : Bool} : Laid l c b [] c b
  | entry {c c₁ c' depth : Nat} {b b' : Bool} {text : String} {first : TokenKind}
      {later : List TokenKind} {lines : List Line} (h : Fits c depth text first later c₁)
      (hb : b = true → first = .punctuation .closeBrace)
      (rest : Laid l c₁ (endsClosed (first :: later)) lines c' b') :
      Laid l c b (.entry depth text :: lines) c' b'
  | apart {c c₁ c' depth : Nat} {b' : Bool} {text : String} {first : TokenKind}
      {later : List TokenKind} {lines : List Line} (h : Fits c depth text first later c₁)
      (hf : first ≠ .punctuation .closeBrace)
      (rest : Laid l c₁ (endsClosed (first :: later)) lines c' b') :
      Laid l c true (List.replicate l.blankLines .blank ++ .entry depth text :: lines) c' b'

section Laid
variable {l : Layout} {c c' c'' : Nat} {b b' b'' : Bool}

theorem Laid.append {xs ys : List Line} (h : l.Laid c b xs c' b') (h' : l.Laid c' b' ys c'' b'') :
    l.Laid c b (xs ++ ys) c'' b'' := by
  induction h with
  | nil => exact h'
  | entry hl hb _ ih => exact .entry hl hb (ih h')
  | apart hl hf _ ih =>
    rw [List.append_assoc]
    exact .apart hl hf (ih h')

theorem Laid.one {depth : Nat} {text : String} {first : TokenKind} {later : List TokenKind}
    (h : Fits c depth text first later c') (hb : b = true → first = .punctuation .closeBrace) :
    l.Laid c b [.entry depth text] c' (endsClosed (first :: later)) :=
  .entry h hb .nil

/-- Lines that begin with a block can be set apart from a block before them. -/
theorem Laid.set_apart {text : String} {lines : List Line}
    (h : l.Laid c false (.entry c text :: lines) c' b') :
    l.Laid c true (List.replicate l.blankLines .blank ++ .entry c text :: lines) c' b' := by
  cases h with
  | @entry _ c₁ _ _ _ _ _ first later _ hl hb rest =>
    refine .apart hl (fun hf => ?_) rest
    have hdepth := hl.depth_eq
    rw [if_pos hf] at hdepth
    omega

theorem laid_flatMap {α : Type} {lines : α → List Line} {as : List α}
    (h : ∀ a ∈ as, l.Laid c false (lines a) c false) :
    l.Laid c false (as.flatMap lines) c false := by
  induction as with
  | nil => exact .nil
  | cons a as ih =>
    obtain ⟨ha, has⟩ := List.forall_mem_cons.mp h
    exact ha.append (ih has)

end Laid

/-! ### Lines without braces -/

/-- Some tokens have no braces among them. -/
def Flat (kinds : List TokenKind) : Prop :=
  ∀ k ∈ kinds, k ≠ .punctuation .openBrace ∧ k ≠ .punctuation .closeBrace

theorem Flat.count_eq {kinds : List TokenKind} (h : Flat kinds) :
    kinds.count (.punctuation .openBrace) = 0 ∧ kinds.count (.punctuation .closeBrace) = 0 :=
  ⟨List.count_eq_zero.mpr fun hm => (h _ hm).1 rfl,
    List.count_eq_zero.mpr fun hm => (h _ hm).2 rfl⟩

/-- A line without braces stands inside the open blocks and opens or closes none. -/
theorem laid_flat {l : Layout} {depth : Nat} {text : String} {kinds : List TokenKind}
    (hyields : Yields (text.toList ++ ['\n']) kinds) (hsolid : Solid text.toList)
    (hne : kinds ≠ []) (hflat : Flat kinds)
    (hlast : ∀ word, kinds.getLast? ≠ some (.keyword word)) :
    l.Laid depth false [.entry depth text] depth false := by
  obtain ⟨first, later, rfl⟩ := List.exists_cons_of_ne_nil hne
  have hfirst : first ≠ .punctuation .closeBrace := (hflat first List.mem_cons_self).2
  have hfits : Fits depth depth text first later depth :=
    { yields := hyields
      solid := hsolid
      depth_eq := by rw [if_neg hfirst]; rfl
      braces := by rw [hflat.count_eq.1, hflat.count_eq.2]
      last := hlast
      closing := fun hm => (hflat _ (List.dropLast_subset _ hm)).2 rfl }
  have hends : endsClosed (first :: later) = false := by
    refine decide_eq_false fun he => ?_
    exact (hflat _ (List.mem_of_getLast? he)).2 rfl
  have hone : l.Laid depth false [.entry depth text] depth (endsClosed (first :: later)) :=
    .one hfits (by simp)
  rwa [hends] at hone

theorem laid_annotations (l : Layout) (depth : Nat) {annotations : List Annotation}
    (h : ∀ a ∈ annotations, a.WellFormed) :
    l.Laid depth false (annotationLines depth annotations) depth false := by
  rw [annotationLines, List.map_eq_flatMap]
  refine laid_flatMap fun a ha => ?_
  have hyields := Annotation.yields_text (h a ha)
  have hsolid := Annotation.solid_text (h a ha)
  obtain ⟨name, value, span⟩ := a
  cases value with
  | none =>
    refine laid_flat hyields hsolid ?_ ?_ ?_ <;> simp [Flat, Annotation.kinds]
  | some v =>
    have hv : v.kind ≠ .punctuation .openBrace ∧ v.kind ≠ .punctuation .closeBrace := by
      cases v <;> simp [AnnotationValue.kind]
    refine laid_flat hyields hsolid ?_ ?_ ?_ <;> simp [Flat, Annotation.kinds, hv]

theorem flat_listKinds (ps : List Parameter) : Flat (Parameter.listKinds ps) := by
  induction ps with
  | nil => simp [Flat, Parameter.listKinds]
  | cons p ps ih =>
    cases ps with
    | nil => simp [Flat, Parameter.listKinds, Parameter.kinds]
    | cons q ps =>
      have hkinds : Parameter.listKinds (p :: q :: ps) =
          p.kinds ++ .punctuation .comma :: Parameter.listKinds (q :: ps) := by
        simp [Parameter.listKinds]
      rw [hkinds, Flat, List.forall_mem_append, List.forall_mem_cons]
      exact ⟨by simp [Parameter.kinds], by simp, ih⟩

theorem flat_bareMemberKinds (l : Layout) (m : Member) : Flat (l.bareMemberKinds m) := by
  obtain a | b := m
  · rw [bareMemberKinds, Flat, List.forall_mem_append]
    refine ⟨?_, by simp⟩
    unfold modifierKinds
    split <;> simp
  · have hlist := flat_listKinds b.parameters
    rw [Flat] at hlist ⊢
    simp only [bareMemberKinds, Method.kinds, List.forall_mem_cons, List.forall_mem_append]
    exact ⟨by simp, by simp, by simp, hlist, by simp⟩

theorem getLast?_bareMemberKinds (l : Layout) (m : Member) :
    (l.bareMemberKinds m).getLast? = some (.punctuation .semicolon) := by
  obtain a | b := m
  · simp [bareMemberKinds]
  · rw [bareMemberKinds, Method.kinds, ← List.cons_append, ← List.cons_append, ← List.cons_append,
      List.getLast?_append_of_ne_nil _ (by simp)]
    rfl

theorem laid_member (l : Layout) (depth : Nat) {m : Member} (hm : m.WellFormed) :
    l.Laid depth false (l.memberLines depth m) depth false := by
  have ha : ∀ a ∈ memberAnnotations m, a.WellFormed := by
    obtain a | b := m
    · exact hm.annotations
    · exact hm.annotations
  have hlast := l.getLast?_bareMemberKinds m
  refine (l.laid_annotations depth ha).append ?_
  refine laid_flat (l.yields_member hm) (l.solid_memberText hm) ?_ (l.flat_bareMemberKinds m) ?_
  · intro hnil
    rw [hnil] at hlast
    cases hlast
  · simp [hlast]

/-! ### Blocks -/

/-- The front of a block up to its brace, with some characters behind the brace. -/
theorem yields_heading {word : Keyword} {name : String} (hn : IsName name) {tail : List Char}
    {ks : List TokenKind} (h : Yields tail ks) :
    Yields ((word.spelling ++ " " ++ name ++ " \x7b").toList ++ tail)
      (.keyword word :: .identifier name :: .punctuation .openBrace :: ks) := by
  have hname := ((h.mark .openBrace).blank (c := ' ') rfl).name (by decide) hn
  have hword := (hname.blank (c := ' ') rfl).keyword (by decide) word
  simpa [Punctuation.char] using hword

theorem solid_heading {word : Keyword} {name : String} (hn : IsName name) :
    Solid (word.spelling ++ " " ++ name ++ " \x7b").toList := by
  have hname : Solid (name.toList ++ ' ' :: ['{']) :=
    (solid_word hn.1).spaced (solid_mark (by decide))
  simpa using (solid_word (word_keyword word)).spaced hname

/-- A block stands where its heading does, and so does the brace that closes it. -/
theorem laid_block {l : Layout} {word : Keyword} {name : String} {body : List Line} {b : Bool}
    (depth : Nat) (hn : IsName name) (hbody : l.Laid (depth + 1) false body (depth + 1) b) :
    l.Laid depth false (block depth (word.spelling ++ " " ++ name) body) depth true := by
  have hend : Yields ['\n'] [] := yields_nil.blank rfl
  have hheading : Solid (word.spelling ++ " " ++ name ++ " \x7b").toList := solid_heading hn
  have hclose : Solid ['}'] := solid_mark (by decide)
  unfold block
  by_cases hempty : body = []
  · have hfits : Fits depth depth (word.spelling ++ " " ++ name ++ " \x7b\x7d") (.keyword word)
        [.identifier name, .punctuation .openBrace, .punctuation .closeBrace] depth :=
      { yields := by simpa [Punctuation.char] using yields_heading hn (hend.mark .closeBrace)
        solid := by simpa using hheading.append hclose
        depth_eq := rfl
        braces := by simp
        last := by simp
        closing := by simp }
    rw [hempty]
    exact .one hfits (by simp)
  · have hfirst : Fits depth depth (word.spelling ++ " " ++ name ++ " \x7b") (.keyword word)
        [.identifier name, .punctuation .openBrace] (depth + 1) :=
      { yields := yields_heading hn hend
        solid := hheading
        depth_eq := rfl
        braces := by simp
        last := by simp
        closing := by simp }
    have hlast : Fits (depth + 1) depth "\x7d" (.punctuation .closeBrace) [] depth :=
      { yields := by simpa [Punctuation.char] using hend.mark .closeBrace
        solid := hclose
        depth_eq := rfl
        braces := by simp
        last := by simp
        closing := by simp }
    rw [if_neg (by simpa using hempty), List.cons_append]
    exact .entry hfirst (by simp) (hbody.append (.one hlast fun _ => rfl))

/-- The lines of a block of some depth, behind its annotations, begin with a line of that depth. -/
theorem exists_first_line (depth : Nat) (annotations : List Annotation) (heading : String)
    (body : List Line) :
    ∃ text later, annotationLines depth annotations ++ block depth heading body =
      .entry depth text :: later := by
  cases annotations with
  | cons a annotations => exact ⟨a.text, _, rfl⟩
  | nil =>
    unfold block
    split
    · exact ⟨_, _, rfl⟩
    · exact ⟨_, _, rfl⟩

/-- **Blocks with blank lines between them.** -/
theorem laid_spaced {α : Type} {l : Layout} {lines : α → List Line} {c : Nat} {as : List α}
    (hfirst : ∀ a ∈ as, ∃ text later, lines a = .entry c text :: later)
    (h : ∀ a ∈ as, l.Laid c false (lines a) c true) :
    l.Laid c false (l.spaced (as.map lines)) c !as.isEmpty := by
  induction as with
  | nil => exact .nil
  | cons a as ih =>
    obtain ⟨ha, has⟩ := List.forall_mem_cons.mp h
    cases as with
    | nil => exact ha
    | cons a' as =>
      have hlater := ih (fun x hx => hfirst x (List.mem_cons_of_mem _ hx)) has
      obtain ⟨text, later, hline⟩ := hfirst a' (by simp)
      obtain ⟨later', hspaced⟩ : ∃ later', l.spaced ((a' :: as).map lines) =
          .entry c text :: later' := by
        cases as with
        | nil => exact ⟨later, hline⟩
        | cons a'' as =>
          refine ⟨later ++ (List.replicate l.blankLines .blank ++
            l.spaced ((a'' :: as).map lines)), ?_⟩
          rw [← List.cons_append, ← hline, ← List.append_assoc]
          rfl
      rw [hspaced] at hlater
      have hall := ha.append hlater.set_apart
      rw [← hspaced, ← List.append_assoc] at hall
      exact hall

theorem laid_interface (l : Layout) (depth : Nat) {i : Interface} (hi : i.WellFormed) :
    l.Laid depth false (l.interfaceLines depth i) depth true := by
  have hm : l.Laid (depth + 1) false (i.members.flatMap (l.memberLines (depth + 1))) (depth + 1)
      false := laid_flatMap fun m hm => l.laid_member (depth + 1) (hi.member hm)
  exact (l.laid_annotations depth hi.annotations).append (laid_block depth hi.name hm)

theorem laid_module (l : Layout) (depth : Nat) {m : Module} (hm : m.WellFormed) :
    l.Laid depth false (l.moduleLines depth m) depth true := by
  have hi : l.Laid (depth + 1) false (l.spaced (m.interfaces.map (l.interfaceLines (depth + 1))))
      (depth + 1) !m.interfaces.isEmpty :=
    laid_spaced (fun _ _ => exists_first_line ..) fun i hi =>
      l.laid_interface (depth + 1) (hm.interfaces i hi)
  exact (l.laid_annotations depth hm.annotations).append (laid_block depth hm.name hi)

/-- **The lines of a program are laid out by their braces.** -/
theorem laid_lines (l : Layout) {program : List Module} (h : ∀ m ∈ program, m.WellFormed) :
    l.Laid 0 false (l.lines program) 0 !program.isEmpty :=
  laid_spaced (fun _ _ => exists_first_line ..) fun m hm => l.laid_module 0 (h m hm)

end Layout

end Idl
