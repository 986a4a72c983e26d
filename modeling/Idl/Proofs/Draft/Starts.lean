import Idl.Proofs.Draft.Decorated
import Mathlib.Data.List.Chain

/-! # Where blocks start

A block starts with its first annotation, or with its keyword if it has none. In a program the first
token of a block can be told by the token before it: a token behind a closing brace that does not
close a block itself is the first one of a block, and it is that of every module but the first and
of every interface but the first of its module (`Grammar.Program.mem_laterLines_iff`).

* `Module.firstLine`, `Interface.firstLine`: the line on which a block starts, by its spans.
* `Token.resumed`: the tokens behind closing braces that close no block themselves.
* `Token.Lined`: tokens in order, where no line ends in a keyword.
* `BlockStart.firstLine_eq`: among such tokens a block starts on the line of its first token. -/

namespace Idl

open Grammar

/-- The line of the first annotation, or else of a name. -/
def firstLine (annotations : List Annotation) (name : Span) : Nat :=
  match annotations with
  | a :: _ => a.span.line
  | [] => name.line

/-- **The line on which an interface starts.** Without annotations that is the line of its name,
where the keyword stands too. -/
def Interface.firstLine (i : Interface) : Nat := Idl.firstLine i.annotations i.span

/-- **The line on which a module starts.** -/
def Module.firstLine (m : Module) : Nat := Idl.firstLine m.annotations m.span

/-- The lines on which the interfaces of a module start, but the first one. -/
def Module.laterLines (m : Module) : List Nat := m.interfaces.tail.map Interface.firstLine

/-- **The lines on which a block starts behind another one:** every module but the first, and every
interface but the first of its module. -/
def laterLines (program : List Module) : List Nat :=
  program.tail.map Module.firstLine ++ program.flatMap Module.laterLines

namespace Token

/-- The tokens behind a closing brace that close no block themselves. -/
def resumed : Bool → List Token → List Token
  | _, [] => []
  | closed, t :: ts =>
    (if closed && !t.isMark .closeBrace then [t] else []) ++ resumed (t.isMark .closeBrace) ts

/-- Whether some tokens end in a closing brace; if there are none, what was known before counts. -/
def closes (closed : Bool) (ts : List Token) : Bool :=
  (ts.getLast?.map fun t => t.isMark .closeBrace).getD closed

theorem resumed_append (closed : Bool) (ts us : List Token) :
    resumed closed (ts ++ us) = resumed closed ts ++ resumed (closes closed ts) us := by
  induction ts generalizing closed with
  | nil => rfl
  | cons t ts ih =>
    rw [List.cons_append, resumed, resumed, ih, List.append_assoc]
    cases ts with
    | nil => rfl
    | cons u us => rfl

/-- There is no closing brace among some tokens. -/
def Open (ts : List Token) : Prop := ∀ t ∈ ts, t.isMark .closeBrace = false

theorem Open.append {ts us : List Token} (h : Open ts) (h' : Open us) : Open (ts ++ us) :=
  List.forall_mem_append.mpr ⟨h, h'⟩

theorem Open.resumed_eq_nil {ts : List Token} (h : Open ts) : resumed false ts = [] := by
  induction ts with
  | nil => rfl
  | cons t ts ih =>
    obtain ⟨ht, hts⟩ := List.forall_mem_cons.mp h
    rw [resumed, ht, ih hts]
    rfl

/-- Among tokens without closing braces only the first can be behind one. -/
theorem Open.resumed_eq {t : Token} {ts : List Token} (h : Open (t :: ts)) (closed : Bool) :
    resumed closed (t :: ts) = if closed then [t] else [] := by
  obtain ⟨ht, hts⟩ := List.forall_mem_cons.mp h
  rw [resumed, ht, Open.resumed_eq_nil hts]
  cases closed <;> rfl

theorem Open.closes_eq {t : Token} {ts : List Token} (h : Open (t :: ts)) (closed : Bool) :
    closes closed (t :: ts) = false := by
  have hl := List.getLast?_eq_some_getLast (List.cons_ne_nil t ts)
  rw [closes, hl]
  exact h _ (List.getLast_mem _)

/-- A token stands on the line of the one before it if that is a keyword. -/
def Joined (t u : Token) : Prop := (∃ word, t.kind = .keyword word) → u.span.line = t.span.line

/-- **Tokens in order, where the token behind a keyword stands on its line.** -/
structure Lined (ts : List Token) : Prop where
  ordered : ts.Pairwise fun t u => t.span.start ≤ u.span.start
  joined : ts.IsChain Joined

theorem Lined.append {ts us : List Token} (h : Lined (ts ++ us)) : Lined ts ∧ Lined us := by
  obtain ⟨hts, hus, -⟩ := List.pairwise_append.mp h.ordered
  obtain ⟨hts', hus', -⟩ := List.isChain_append.mp h.joined
  exact ⟨⟨hts, hts'⟩, ⟨hus, hus'⟩⟩

end Token

namespace Grammar

/-! ### The first line of a block -/

theorem AnnotationDecl.line_eq {ts : List Token} {a : Annotation} (h : AnnotationDecl ts a)
    (hl : Token.Lined ts) : ∃ t rest, ts = t :: rest ∧ a.span.line = t.span.line := by
  have hmerge : ∀ {s s' : Span}, s.start ≤ s'.start → (s.merge s').line = s.line := by
    intro s s' hs
    rw [Span.merge, if_pos hs]
  have hordered := hl.ordered
  cases h with
  | @bare sign word name hs hn =>
    refine ⟨sign, [word], rfl, hmerge ?_⟩
    exact List.rel_of_pairwise_cons hordered (by simp)
  | @valued sign word opening literal closing name value hs hn ho hv hc =>
    refine ⟨sign, [word, opening, literal, closing], rfl, hmerge ?_⟩
    exact List.rel_of_pairwise_cons hordered (by simp)

/-- **A block starts on the line of its first token.** -/
theorem BlockStart.firstLine_eq {word : Keyword} {ts : List Token} {h : Heading}
    (hs : BlockStart word ts h) (hl : Token.Lined ts) :
    ∃ t rest, ts = t :: rest ∧ firstLine h.annotations h.span = t.span.line := by
  obtain @⟨us, keyword, label, brace, annotations, name, ha, hk, hn, hb⟩ := hs
  cases ha with
  | nil =>
    -- The keyword comes first, and a block without annotations has the line of its name.
    refine ⟨keyword, [label, brace], rfl, ?_⟩
    exact (List.isChain_cons_cons.mp hl.joined).1 ⟨word, hk⟩
  | @cons ts₁ ts₂ a as first later =>
    rw [List.append_assoc] at hl
    obtain ⟨t, rest, rfl, hline⟩ := first.line_eq hl.append.1
    exact ⟨t, rest ++ ts₂ ++ [keyword, label, brace], by simp, hline⟩

/-! ### Tokens without closing braces -/

theorem Many.open {α : Type} {piece : List Token → α → Prop} {ts : List Token} {as : List α}
    (h : Many piece ts as) (hpiece : ∀ {us a}, piece us a → Token.Open us) : Token.Open ts := by
  induction h with
  | nil => simp [Token.Open]
  | cons first _ ih => exact (hpiece first).append ih

theorem AnnotationDecl.open {ts : List Token} {a : Annotation} (h : AnnotationDecl ts a) :
    Token.Open ts := by
  cases h with
  | bare hs hn => simp [Token.Open, Token.isMark, hs, hn]
  | @valued _ _ _ literal _ _ _ hs hn ho hv hc =>
    have hliteral : literal.kind ≠ .punctuation .closeBrace := by
      generalize literal.kind = kind at hv
      cases hv <;> simp
    simp [Token.Open, Token.isMark, hs, hn, ho, hliteral, hc]

theorem BlockStart.open {word : Keyword} {ts : List Token} {h : Heading}
    (hs : BlockStart word ts h) : Token.Open ts := by
  obtain ⟨ha, hk, hn, hb⟩ := hs
  refine (ha.open AnnotationDecl.open).append ?_
  simp [Token.Open, Token.isMark, hk, hn, hb]

theorem MemberStart.open {ts : List Token} {h : MemberHeading} (hs : MemberStart ts h) :
    Token.Open ts := by
  cases hs with
  | plain ha ht =>
    refine (ha.open AnnotationDecl.open).append ?_
    simp [Token.Open, Token.isMark, ht]
  | @modified _ modifier _ _ _ _ ha hm ht =>
    have hmodifier : modifier.kind ≠ .punctuation .closeBrace := by
      generalize modifier.kind = kind at hm
      cases hm <;> simp
    refine (ha.open AnnotationDecl.open).append ?_
    simp [Token.Open, Token.isMark, hmodifier, ht]

theorem ParameterList.open {ts : List Token} {ps : List Parameter} (h : ParameterList ts ps) :
    Token.Open ts := by
  have hparameter : ∀ {ts p}, ParameterDecl ts p → Token.Open ts := by
    rintro _ _ ⟨ht, hn⟩
    simp [Token.Open, Token.isMark, ht, hn]
  induction h with
  | one hp => exact hparameter hp
  | cons hp hc _ ih =>
    exact (hparameter hp).append (List.forall_mem_cons.mpr ⟨by simp [Token.isMark, hc], ih⟩)

theorem Parameters.open {ts : List Token} {ps : List Parameter} (h : Parameters ts ps) :
    Token.Open ts := by
  cases h with
  | none => simp [Token.Open]
  | list h => exact h.open

theorem MemberDecl.open {ts : List Token} {m : Member} (h : MemberDecl ts m) : Token.Open ts := by
  obtain ⟨⟨hs, hn, he⟩⟩ | ⟨⟨⟨hs, -, hn, ho⟩, hp, hc, he⟩⟩ := h
  · refine hs.open.append ?_
    simp [Token.Open, Token.isMark, hn, he]
  · refine ((hs.open.append ?_).append hp.open).append ?_
    · simp [Token.Open, Token.isMark, hn, ho]
    · simp [Token.Open, Token.isMark, hc, he]

/-! ### The blocks of a program -/

/-- Some tokens are a block that starts on a line, with blocks inside it that start behind others on
further lines. -/
structure Starts (ts : List Token) (first : Nat) (later : List Nat) : Prop where
  resumed : ∀ closed s, (∃ t ∈ Token.resumed closed ts, t.span.line = s) ↔
    (closed = true ∧ s = first) ∨ s ∈ later
  closes : ∀ closed, Token.closes closed ts = true

/-- A block starts on its first line, and what is inside it is behind an opening brace. -/
theorem BlockStart.starts {word : Keyword} {ts us : List Token} {brace : Token} {h : Heading}
    {later : List Nat} (hs : BlockStart word ts h) (hb : brace.kind = .punctuation .closeBrace)
    (hl : Token.Lined ts)
    (hu : ∀ s, (∃ t ∈ Token.resumed false us, t.span.line = s) ↔ s ∈ later) :
    Starts (ts ++ us ++ [brace]) (firstLine h.annotations h.span) later := by
  obtain ⟨t, rest, rfl, hline⟩ := hs.firstLine_eq hl
  have hbrace : brace.isMark .closeBrace = true := by simp [Token.isMark, hb]
  constructor
  · intro closed s
    have hcloses : Token.closes closed (t :: rest) = false := hs.open.closes_eq closed
    have hnone : ∀ b, Token.resumed b [brace] = [] := by simp [Token.resumed, hbrace]
    have hfirst : (∃ u ∈ if closed then [t] else [], u.span.line = s) ↔
        closed = true ∧ s = t.span.line := by
      cases closed <;> simp [eq_comm]
    rw [Token.resumed_append, Token.resumed_append, hnone, List.append_nil, hcloses,
      hs.open.resumed_eq, hline, ← hfirst, ← hu]
    simp only [List.mem_append, or_and_right, exists_or]
  · intro closed
    rw [Token.closes, List.getLast?_concat]
    exact hbrace

/-- The blocks of a list that stand behind a closing brace: all but the first, and the first one
too if there is a brace before it. -/
theorem Many.resumed_iff {α : Type} {piece : List Token → α → Prop} {first : α → Nat}
    {later : α → List Nat} {ts : List Token} {as : List α} (h : Many piece ts as)
    (hpiece : ∀ {us a}, piece us a → Token.Lined us → Starts us (first a) (later a))
    (hl : Token.Lined ts) (closed : Bool) (s : Nat) :
    (∃ t ∈ Token.resumed closed ts, t.span.line = s) ↔
      s ∈ (if closed then as else as.tail).map first ++ as.flatMap later := by
  induction h generalizing closed with
  | nil => cases closed <;> simp [Token.resumed]
  | @cons ts us a as hfirst _ ih =>
    -- The pieces behind the first one all stand behind a closing brace, whatever was before it.
    obtain ⟨hts, hus⟩ := hl.append
    have hstarts := hpiece hfirst hts
    have hlater := ih hus true
    rw [Token.resumed_append, hstarts.closes]
    simp only [List.mem_append, or_and_right, exists_or]
    rw [hstarts.resumed, hlater]
    cases closed <;> simp [or_assoc, or_left_comm]

theorem InterfaceDecl.starts {ts : List Token} {i : Interface} (h : InterfaceDecl ts i)
    (hl : Token.Lined ts) : Starts ts i.firstLine [] := by
  obtain @⟨_, us, brace, heading, members, hs, hm, hb⟩ := h
  have hnone : Token.resumed false us = [] := (hm.open MemberDecl.open).resumed_eq_nil
  exact hs.starts hb hl.append.1.append.1 (by simp [hnone])

theorem ModuleDecl.starts {ts : List Token} {m : Module} (h : ModuleDecl ts m)
    (hl : Token.Lined ts) : Starts ts m.firstLine m.laterLines := by
  obtain @⟨ts, us, brace, heading, interfaces, hs, hi, hb⟩ := h
  have hl' : Token.Lined (ts ++ us) := hl.append.1
  refine hs.starts hb hl'.append.1 fun s => ?_
  rw [hi.resumed_iff InterfaceDecl.starts hl'.append.2]
  simp [Module.laterLines]

/-- **The first token of a block can be told by the closing brace before it.** -/
theorem Program.mem_laterLines_iff {ts : List Token} {program : List Module}
    (h : Program ts program) (hl : Token.Lined ts) {s : Nat} :
    s ∈ laterLines program ↔ ∃ t ∈ Token.resumed false ts, t.span.line = s :=
  (Many.resumed_iff h ModuleDecl.starts hl false s).symm

end Grammar

end Idl
