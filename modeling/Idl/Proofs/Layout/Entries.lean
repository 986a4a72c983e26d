import Idl.Dump
import Idl.Proofs.Draft.SpanMap
import Idl.Proofs.Layout.Braced
import Idl.Text.Lines

/-! # Rows of an outline

A row says what is declared, with which annotations, and where (`Outline.Entry`). Up to the bracket
in front of the position it is cut like any other text: no token begins with a bracket, and one
between quotes stands in the text of its literal. So the front of a row yields the tokens of its
declaration, and ends where the cut is stuck (`Outline.eq_of_yields_bracket`). The tokens tell
names, types, modifiers, parameters and annotations apart; only the places of parameters and
annotations are not shown.

* `map_eq_of_flatMap_eq`: blocks that begin with a mark, and have no other, can be told apart.
* `Outline.Entry.outlined_eq_of_row`: a row tells all that it shows.
* `Outline.map_outlined_eq_of_join`: so do rows one behind the other. -/

namespace Idl

open Lexeme

/-! ### Blocks behind marks -/

section Marks
variable {α β γ : Type} (mark : β → Prop)

/-- Where the first mark stands can be told from a list. -/
theorem append_inj_of_mark {a a' b b' : List β} (ha : ∀ x ∈ a, ¬ mark x) (ha' : ∀ x ∈ a', ¬ mark x)
    (hb : ∀ x ∈ b.head?, mark x) (hb' : ∀ x ∈ b'.head?, mark x) (h : a ++ b = a' ++ b') :
    a = a' ∧ b = b' := by
  induction a generalizing a' with
  | nil =>
    cases a' with
    | nil => exact ⟨rfl, h⟩
    | cons x a' =>
      rw [List.nil_append] at h
      exact absurd (hb x (by rw [h]; rfl)) (ha' x List.mem_cons_self)
  | cons x a ih =>
    cases a' with
    | nil =>
      rw [List.nil_append] at h
      exact absurd (hb' x (by rw [← h]; rfl)) (ha x List.mem_cons_self)
    | cons y a' =>
      obtain ⟨rfl, htail⟩ := List.cons.inj h
      obtain ⟨rfl, rfl⟩ := ih (List.forall_mem_cons.mp ha).2 (List.forall_mem_cons.mp ha').2 htail
      exact ⟨rfl, rfl⟩

/-- **A block that begins with a mark**, and has no other. -/
def Marked (block : List β) : Prop := ∃ x tail, block = x :: tail ∧ mark x ∧ ∀ y ∈ tail, ¬ mark y

theorem head?_flatMap_marked {block : α → List β} {as : List α}
    (h : ∀ a ∈ as, Marked mark (block a)) : ∀ x ∈ (as.flatMap block).head?, mark x := by
  cases as with
  | nil => simp
  | cons a as =>
    obtain ⟨x, tail, hx, hmark, -⟩ := h a List.mem_cons_self
    rw [List.flatMap_cons, hx]
    rintro y ⟨⟩
    exact hmark

/-- **Marked blocks one behind the other can be told apart.** -/
theorem map_eq_of_flatMap_eq {block : α → List β} {g : α → γ} {as as' : List α}
    (hm : ∀ a ∈ as, Marked mark (block a)) (hm' : ∀ a ∈ as', Marked mark (block a))
    (hg : ∀ a ∈ as, ∀ a' ∈ as', block a = block a' → g a = g a')
    (h : as.flatMap block = as'.flatMap block) : as.map g = as'.map g := by
  induction as generalizing as' with
  | nil =>
    cases as' with
    | nil => rfl
    | cons a' as' =>
      obtain ⟨x, tail, hx, -, -⟩ := hm' a' List.mem_cons_self
      rw [List.flatMap_cons, hx] at h
      cases h
  | cons a as ih =>
    obtain ⟨x, tail, hx, -, htail⟩ := hm a List.mem_cons_self
    cases as' with
    | nil =>
      rw [List.flatMap_cons, hx] at h
      cases h
    | cons a' as' =>
      obtain ⟨x', tail', hx', -, htail'⟩ := hm' a' List.mem_cons_self
      obtain ⟨-, hlater⟩ := List.forall_mem_cons.mp hm
      obtain ⟨-, hlater'⟩ := List.forall_mem_cons.mp hm'
      rw [List.flatMap_cons, List.flatMap_cons, hx, hx', List.cons_append, List.cons_append] at h
      obtain ⟨hhead, hrest⟩ := List.cons.inj h
      -- Both first blocks end where the next mark stands.
      obtain ⟨rfl, hflat⟩ := append_inj_of_mark mark htail htail'
        (head?_flatMap_marked mark hlater) (head?_flatMap_marked mark hlater') hrest
      have hfirst : g a = g a' := by
        refine hg a List.mem_cons_self a' List.mem_cons_self ?_
        rw [hx, hx', hhead]
      have hothers := ih hlater hlater'
        (fun b hb b' hb' => hg b (List.mem_cons_of_mem _ hb) b' (List.mem_cons_of_mem _ hb')) hflat
      rw [List.map_cons, List.map_cons, hfirst, hothers]

end Marks

/-! ### What tokens and digits tell -/

theorem AnnotationValue.eq_of_kind {v v' : AnnotationValue} (h : v.kind = v'.kind) : v = v' := by
  cases v <;> cases v' <;> cases h <;> rfl

/-- The tokens of an annotation tell all of it but its place. -/
theorem Annotation.mapSpan_eq_of_kinds {a a' : Annotation} (h : a.kinds = a'.kinds) :
    a.mapSpan (fun _ => .nowhere) = a'.mapSpan fun _ => .nowhere := by
  obtain ⟨name, value, span⟩ := a
  obtain ⟨name', value', span'⟩ := a'
  obtain ⟨-, hlater⟩ := List.cons.inj h
  obtain ⟨hname, hvalue⟩ := List.cons.inj hlater
  cases hname
  rcases value with _ | v <;> rcases value' with _ | v'
  · rfl
  · cases hvalue
  · cases hvalue
  · obtain ⟨-, hrest⟩ := List.cons.inj hvalue
    rw [AnnotationValue.eq_of_kind (List.cons.inj hrest).1]
    rfl

theorem Annotation.marked_kinds (a : Annotation) : Marked (· = .punctuation .atSign) a.kinds := by
  refine ⟨_, _, rfl, rfl, ?_⟩
  rcases a.value with _ | v
  · simp
  · have hv : v.kind ≠ .punctuation .atSign := by cases v <;> simp [AnnotationValue.kind]
    simp [hv]

theorem Parameter.listKinds_cons (p : Parameter) (ps : List Parameter) :
    listKinds (p :: ps) = p.kinds ++ ps.flatMap fun q => .punctuation .comma :: q.kinds := by
  induction ps generalizing p with
  | nil => simp [listKinds]
  | cons q ps ih =>
    have hcons : listKinds (p :: q :: ps) =
        p.kinds ++ .punctuation .comma :: listKinds (q :: ps) := by
      simp [listKinds]
    rw [hcons, ih, List.flatMap_cons, List.cons_append]

theorem Parameter.of_mem_listKinds {ps : List Parameter} {kind : TokenKind}
    (h : kind ∈ listKinds ps) : kind = .punctuation .comma ∨ ∃ name, kind = .identifier name := by
  cases ps with
  | nil => cases h
  | cons p ps =>
    rw [listKinds_cons, List.mem_append, List.mem_flatMap] at h
    have hkinds : ∀ q : Parameter, kind ∈ q.kinds → ∃ name, kind = .identifier name := by
      intro q hq
      simp only [kinds, List.mem_cons, List.not_mem_nil, or_false] at hq
      rcases hq with rfl | rfl
      · exact ⟨_, rfl⟩
      · exact ⟨_, rfl⟩
    rcases h with hp | ⟨q, -, hq⟩
    · exact .inr (hkinds p hp)
    · rcases List.mem_cons.mp hq with hcomma | hq
      · exact .inl hcomma
      · exact .inr (hkinds q hq)

/-- The tokens of parameters tell all of them but their places. -/
theorem Parameter.map_eq_of_listKinds {ps ps' : List Parameter} (h : listKinds ps = listKinds ps') :
    ps.map (·.mapSpan fun _ => .nowhere) = ps'.map (·.mapSpan fun _ => .nowhere) := by
  have hone : ∀ {p p' : Parameter}, p.kinds = p'.kinds →
      p.mapSpan (fun _ => .nowhere) = p'.mapSpan fun _ => .nowhere := by
    rintro ⟨type, name, span⟩ ⟨type', name', span'⟩ hkinds
    cases hkinds
    rfl
  have hmarked : ∀ qs : List Parameter, ∀ q ∈ qs,
      Marked (· = .punctuation .comma) (.punctuation .comma :: q.kinds) :=
    fun _ q _ => ⟨_, _, rfl, rfl, by simp [kinds]⟩
  rcases ps with _ | ⟨p, ps⟩ <;> rcases ps' with _ | ⟨p', ps'⟩
  · rfl
  · rw [listKinds_cons] at h
    cases h
  · rw [listKinds_cons] at h
    cases h
  · rw [listKinds_cons, listKinds_cons] at h
    obtain ⟨hp, hflat⟩ := List.append_inj h rfl
    have hps := map_eq_of_flatMap_eq _ (hmarked ps) (hmarked ps')
      (fun _ _ _ _ hq => hone (List.cons.inj hq).2) hflat
    rw [List.map_cons, List.map_cons, hone hp, hps]

theorem eq_of_toDigits_eq {m n : Nat} (h : Nat.toDigits 10 m = Nat.toDigits 10 n) : m = n := by
  have hvalue := congrArg (fun digits => Nat.ofDigitChars 10 digits 0) h
  simpa using hvalue

/-- A span of which only the line and the column are kept. -/
def Span.place (s : Span) : Span := ⟨0, 0, s.line, s.column⟩

theorem Span.place_eq_of_text {s s' : Span} (h : s.text = s'.text) : s.place = s'.place := by
  have hdigit : ∀ n : Nat, ∀ c ∈ Nat.toDigits 10 n, c ≠ ':' := by
    rintro n c hc rfl
    exact absurd (Nat.isDigit_of_mem_toDigits (by decide) (by decide) hc) (by decide)
  have hchars : Nat.toDigits 10 s.line ++ ':' :: Nat.toDigits 10 s.column =
      Nat.toDigits 10 s'.line ++ ':' :: Nat.toDigits 10 s'.column := by
    simpa [text, Nat.toList_repr] using congrArg String.toList h
  obtain ⟨hline, hcolumn⟩ := append_inj_of_mark (· = ':') (hdigit s.line) (hdigit s'.line)
    (by simp) (by simp) hchars
  unfold place
  rw [eq_of_toDigits_eq hline, eq_of_toDigits_eq (List.cons.inj hcolumn).2]

namespace Outline

/-! ### Rows -/

/-- What a row says in front of its annotations. -/
inductive Head where
  | module (name : String)
  | interface (name : String)
  | attribute (visibility : Visibility) (type name : String)
  | method (returnType name : String) (parameters : List Parameter)

namespace Head

/-- Members stand inside interfaces, and these inside modules. -/
def depth : Head → Nat
  | .module _ => 0
  | .interface _ => 1
  | .attribute .. | .method .. => 2

/-- The sort of the declaration, and the declaration as it is written. -/
def text : Head → String
  | .module name => "module " ++ name
  | .interface name => "interface " ++ name
  | .attribute visibility type name =>
    "attribute " ++ (⟨name, type, visibility, [], .nowhere⟩ : Attribute).text
  | .method returnType name parameters =>
    "method " ++ (⟨returnType, name, parameters, [], .nowhere⟩ : Method).text

/-- The tokens of a row in front of its annotations. The sorts of members are no keywords. -/
def kinds : Head → List TokenKind
  | .module name => [.keyword .module, .identifier name]
  | .interface name => [.keyword .interface, .identifier name]
  | .attribute visibility type name =>
    [.identifier "attribute", .keyword visibility.keyword, .identifier type, .identifier name]
  | .method returnType name parameters =>
    .identifier "method" :: .identifier returnType :: .identifier name ::
      .punctuation .openParen :: (Parameter.listKinds parameters ++ [.punctuation .closeParen])

/-- The names of a row can be written. -/
def WellFormed : Head → Prop
  | .module name | .interface name => IsName name
  | .attribute _ type name => IsName type ∧ IsName name
  | .method returnType name parameters =>
    (⟨returnType, name, parameters, [], .nowhere⟩ : Method).WellFormed

/-- A row without the places of its parameters. -/
def outlined : Head → Head
  | .method returnType name parameters =>
    .method returnType name (parameters.map (·.mapSpan fun _ => .nowhere))
  | head => head

end Head

/-- Annotations with blanks around them. -/
def spacedOut (annotations : List Annotation) : List Char :=
  annotations.flatMap (fun a => ' ' :: a.text.toList) ++ [' ']

/-- A row of an outline. -/
structure Entry where
  head : Head
  annotations : List Annotation
  span : Span

namespace Entry

/-- The row in the text. -/
def text (e : Entry) : String := line e.head.depth e.head.text e.annotations e.span

/-- The row without the places that it does not show. -/
def outlined (e : Entry) : Entry :=
  ⟨e.head.outlined, e.annotations.map (·.mapSpan fun _ => .nowhere), e.span.place⟩

/-- What a row says can be written. -/
structure WellFormed (e : Entry) : Prop where
  head : e.head.WellFormed
  annotations : ∀ a ∈ e.annotations, a.WellFormed

/-- The row up to the bracket in front of its position. -/
def told (e : Entry) : List Char :=
  List.replicate (2 * e.head.depth) ' ' ++ (e.head.text.toList ++ spacedOut e.annotations)

/-- The characters of a row. -/
def row (e : Entry) : List Char := e.told ++ '[' :: (e.span.text.toList ++ [']'])

/-- The tokens of a row up to the bracket. -/
def kinds (e : Entry) : List TokenKind := e.head.kinds ++ e.annotations.flatMap Annotation.kinds

theorem toList_text (e : Entry) : e.text.toList = e.row ++ ['\n'] := by
  simp [text, line, row, told, spacedOut, List.flatMap_map]

end Entry

/-! ### The tokens of a row -/

/-- Annotations begin with a blank, be it that of the first one or the last. -/
theorem exists_spacedOut (annotations : List Annotation) :
    ∃ tail, spacedOut annotations = ' ' :: tail := by
  cases annotations with
  | nil => exact ⟨[], rfl⟩
  | cons a annotations => exact ⟨_, rfl⟩

theorem yields_spacedOut {annotations : List Annotation} (h : ∀ a ∈ annotations, a.WellFormed) :
    Yields (spacedOut annotations) (annotations.flatMap Annotation.kinds) := by
  induction annotations with
  | nil => exact yields_nil.blank rfl
  | cons a annotations ih =>
    obtain ⟨ha, hlater⟩ := List.forall_mem_cons.mp h
    have hrest := ih hlater
    have hcons : spacedOut (a :: annotations) =
        ' ' :: (a.text.toList ++ spacedOut annotations) := by
      simp [spacedOut]
    -- The name of an annotation ends at the blank that follows it.
    obtain ⟨tail, htail⟩ := exists_spacedOut annotations
    rw [htail] at hrest
    rw [hcons, htail, List.flatMap_cons]
    exact (a.yields_front ha (by decide) hrest).blank rfl

theorem Head.yields_text {head : Head} (h : head.WellFormed) {c : Char} {tail : List Char}
    {ks : List TokenKind} (hc : isWordPart c = false) (hy : Yields (c :: tail) ks) :
    Yields (head.text.toList ++ c :: tail) (head.kinds ++ ks) := by
  rcases head with name | name | ⟨visibility, type, name⟩ | ⟨returnType, name, parameters⟩
  · have hname := (hy.name hc h).blank (c := ' ') rfl
    simpa [text, kinds, Keyword.spelling] using hname.keyword (by decide) .module
  · have hname := (hy.name hc h).blank (c := ' ') rfl
    simpa [text, kinds, Keyword.spelling] using hname.keyword (by decide) .interface
  · have hname := (hy.name hc h.2).blank (c := ' ') rfl
    have htype := (hname.name (by decide) h.1).blank (c := ' ') rfl
    have hvisibility := (htype.keyword (by decide) visibility.keyword).blank (c := ' ') rfl
    have hsort : IsName "attribute" := by decide
    simpa [text, kinds, Attribute.text, Visibility.text] using hvisibility.name (by decide) hsort
  · have hmethod := (Method.yields_front h hy).blank (c := ' ') rfl
    have hsort : IsName "method" := by decide
    simpa [text, kinds] using hmethod.name (by decide) hsort

/-- **The front of a row yields its tokens**, whatever the position is. -/
theorem Entry.yields_told {e : Entry} (h : e.WellFormed) : Yields e.told e.kinds := by
  have hannotations := yields_spacedOut h.annotations
  obtain ⟨tail, htail⟩ := exists_spacedOut e.annotations
  rw [htail] at hannotations
  unfold told
  rw [htail]
  exact (Head.yields_text h.head (by decide) hannotations).blanks _

/-- **No token begins with a bracket**, so the text up to one can be told from a row, and so can
what it yields. -/
theorem eq_of_yields_bracket {told told' rest rest' : List Char} {ks ks' : List TokenKind}
    (h : Yields told ks) (h' : Yields told' ks')
    (he : told ++ '[' :: rest = told' ++ '[' :: rest') :
    told = told' ∧ ks = ks' ∧ rest = rest' := by
  obtain ⟨ls, hvisible, hcut⟩ := h
  obtain ⟨ls', hvisible', hcut'⟩ := h'
  -- The cut of a row is stuck at the bracket, so its lexemes are those of the text up to there.
  have hstuck : ∀ rest, (cut ('[' :: rest)).1 = [] := by
    intro rest
    have hfirst : first '[' rest = .error ⟨.unexpectedCharacter, [], ['[']⟩ := rfl
    rw [cut_cons_error hfirst]
  have hlexemes : ls = ls' := by
    have hls := congrArg Prod.fst (hcut ('[' :: rest))
    have hls' := congrArg Prod.fst (hcut' ('[' :: rest'))
    rw [hstuck, List.append_nil] at hls hls'
    exact hls.symm.trans ((congrArg (fun text => (cut text).1) he).trans hls')
  have htexts : ∀ {text : List Char} {ls : List Lexeme},
      (∀ rest, cut (text ++ rest) = (ls ++ (cut rest).1, (cut rest).2)) → texts ls = text := by
    intro text ls hall
    have hend : cut text = (ls, none) := by simpa using hall []
    exact (cut_eq_iff.mp hend).texts_eq
  have htold : told = told' := by rw [← htexts hcut, ← htexts hcut', hlexemes]
  refine ⟨htold, ?_, ?_⟩
  · subst hlexemes
    rw [hvisible] at hvisible'
    exact List.map_injective_iff.mpr (fun _ _ hk => LexemeKind.token.inj hk) hvisible'
  · rw [htold] at he
    exact (List.cons.inj (List.append_cancel_left he)).2

/-! ### What the tokens tell -/

theorem Head.ne_sign_of_mem {head : Head} {kind : TokenKind} (h : kind ∈ head.kinds) :
    kind ≠ .punctuation .atSign := by
  rintro rfl
  rcases head with name | name | ⟨visibility, type, name⟩ | ⟨returnType, name, parameters⟩
  · simp [kinds] at h
  · simp [kinds] at h
  · simp [kinds] at h
  · simp only [kinds, List.mem_cons, List.mem_append, reduceCtorEq, TokenKind.punctuation.injEq,
      List.not_mem_nil, or_false, false_or] at h
    rcases Parameter.of_mem_listKinds h with hcomma | ⟨called, hname⟩
    · cases hcomma
    · cases hname

/-- The tokens of a head tell all of it but the places of its parameters. -/
theorem Head.outlined_eq_of_kinds {head head' : Head} (h : head.kinds = head'.kinds) :
    head.outlined = head'.outlined := by
  rcases head with name | name | ⟨visibility, type, name⟩ | ⟨returnType, name, parameters⟩ <;>
    rcases head' with name' | name' | ⟨visibility', type', name'⟩ |
      ⟨returnType', name', parameters'⟩ <;>
    simp only [kinds, List.cons.injEq, TokenKind.keyword.injEq, TokenKind.identifier.injEq,
      reduceCtorEq, false_and, and_false, and_true, true_and] at h
  · rw [h]
  · rw [h]
  · obtain ⟨hkeyword, rfl, rfl⟩ := h
    have hvisibility := congrArg Visibility.ofKeyword? hkeyword
    rw [Visibility.ofKeyword?_keyword, Visibility.ofKeyword?_keyword] at hvisibility
    cases hvisibility
    rfl
  · obtain ⟨rfl, rfl, hparameters⟩ := h
    have hlist := Parameter.map_eq_of_listKinds (List.append_cancel_right hparameters)
    exact congrArg (Head.method returnType name) hlist

/-- **A row tells all that it shows.** -/
theorem Entry.outlined_eq_of_row {e e' : Entry} (h : e.WellFormed) (h' : e'.WellFormed)
    (he : e.row = e'.row) : e.outlined = e'.outlined := by
  obtain ⟨-, hkinds, hrest⟩ := eq_of_yields_bracket (yields_told h) (yields_told h') he
  have hplace : e.span.place = e'.span.place :=
    Span.place_eq_of_text (String.toList_inj.mp (List.append_cancel_right hrest))
  have hmarked : ∀ as : List Annotation, ∀ a ∈ as, Marked (· = .punctuation .atSign) a.kinds :=
    fun _ a _ => a.marked_kinds
  obtain ⟨hhead, hflat⟩ := append_inj_of_mark (· = .punctuation .atSign)
    (fun _ => Head.ne_sign_of_mem) (fun _ => Head.ne_sign_of_mem)
    (head?_flatMap_marked _ (hmarked e.annotations))
    (head?_flatMap_marked _ (hmarked e'.annotations)) hkinds
  have hannotations := map_eq_of_flatMap_eq _ (hmarked e.annotations) (hmarked e'.annotations)
    (fun _ _ _ _ => Annotation.mapSpan_eq_of_kinds) hflat
  unfold outlined
  rw [Head.outlined_eq_of_kinds hhead, hannotations, hplace]

/-! ### Rows of a text -/

theorem Head.newline_not_mem_text {head : Head} (h : head.WellFormed) :
    '\n' ∉ head.text.toList := by
  have hspace : '\n' ∉ " ".toList := by decide
  rcases head with name | name | ⟨visibility, type, name⟩ | ⟨returnType, name, parameters⟩
  · have hsort : '\n' ∉ "module ".toList := by decide
    have hname := (solid_word h.1).line
    simp only [text, String.toList_append, List.mem_append, not_or]
    exact ⟨hsort, hname⟩
  · have hsort : '\n' ∉ "interface ".toList := by decide
    have hname := (solid_word h.1).line
    simp only [text, String.toList_append, List.mem_append, not_or]
    exact ⟨hsort, hname⟩
  · have hsort : '\n' ∉ "attribute ".toList := by decide
    have hvisibility := (solid_word (word_keyword visibility.keyword)).line
    have htype := (solid_word h.1.1).line
    have hname := (solid_word h.2.1).line
    simp only [text, Attribute.text, Visibility.text, String.toList_append, List.mem_append, not_or]
    exact ⟨hsort, ⟨⟨⟨hvisibility, hspace⟩, htype⟩, hspace⟩, hname⟩
  · have hsort : '\n' ∉ "method ".toList := by decide
    have hmethod := (Method.solid_text h).line
    simp only [String.toList_append, List.mem_append, not_or] at hmethod
    simp only [text, String.toList_append, List.mem_append, not_or]
    exact ⟨hsort, hmethod.1⟩

theorem Entry.newline_not_mem_row {e : Entry} (h : e.WellFormed) : '\n' ∉ e.row := by
  have hhead := Head.newline_not_mem_text h.head
  have hannotation : ∀ a ∈ e.annotations, '\n' ∉ a.text.toList := by
    intro a ha
    have hsolid := Annotation.solid_text (h.annotations a ha)
    exact hsolid.line
  have hdigits : ∀ n : Nat, '\n' ∉ Nat.toDigits 10 n := fun n hn =>
    absurd (Nat.isDigit_of_mem_toDigits (by decide) (by decide) hn) (by decide)
  have hspan : '\n' ∉ e.span.text.toList := by simp [Span.text, Nat.toList_repr, hdigits]
  simp only [row, told, spacedOut, List.mem_append, List.mem_cons, List.mem_flatMap,
    List.mem_replicate, List.not_mem_nil, not_or, or_false]
  refine ⟨⟨by simp, hhead, ?_, by decide⟩, by decide, hspan, by decide⟩
  rintro ⟨a, ha, hblank | htext⟩
  · exact absurd hblank (by decide)
  · exact hannotation a ha htext

/-- **The rows of a text tell what they show**, one by one. -/
theorem map_outlined_eq_of_join {es es' : List Entry} (h : ∀ e ∈ es, e.WellFormed)
    (h' : ∀ e ∈ es', e.WellFormed)
    (hjoin : String.join (es.map Entry.text) = String.join (es'.map Entry.text)) :
    es.map Entry.outlined = es'.map Entry.outlined := by
  have hrows : ∀ {es : List Entry}, (∀ e ∈ es, e.WellFormed) →
      Text.rows (String.join (es.map Entry.text)).toList = es.map Entry.row := by
    intro es hes
    have hchars : (String.join (es.map Entry.text)).toList =
        (es.map Entry.row).flatMap (· ++ ['\n']) := by
      simp only [String.toList_join, List.flatMap_map, Entry.toList_text]
    rw [hchars]
    refine Text.rows_flatMap fun row hrow => ?_
    obtain ⟨e, he, rfl⟩ := List.mem_map.mp hrow
    exact Entry.newline_not_mem_row (hes e he)
  have hmap : es.flatMap (fun e => [e.row]) = es'.flatMap fun e => [e.row] := by
    rw [← List.map_eq_flatMap, ← List.map_eq_flatMap, ← hrows h, ← hrows h', hjoin]
  have hmarked : ∀ es : List Entry, ∀ e ∈ es, Marked (fun _ => True) [e.row] :=
    fun _ e _ => ⟨_, _, rfl, trivial, by simp⟩
  refine map_eq_of_flatMap_eq _ (hmarked es) (hmarked es') (fun e he e' he' hrow => ?_) hmap
  exact Entry.outlined_eq_of_row (h e he) (h' e' he') (List.cons.inj hrow).1

end Outline

end Idl
