import Idl.Proofs.Lexeme.LongestMatch
import Idl.Proofs.Model.WellFormed

/-! # Programs that were read

A program that was parsed from a text is well-formed. The tokens of a text are spelled by some of
its characters, so their names are words that are no keywords and their numbers are numerals
(`Scan.spellable_of_mem`). The grammar takes the names and literals of a declaration from its
tokens, rule by rule, and builds interfaces from members (`Grammar.Program.wellFormed`). Names that
are not apart are refused in the end.

* `wellFormed_of_parseText`: reading gives well-formed programs only. -/

namespace Idl

/-! ### Tokens of a text -/

/-- The kinds of the tokens that can stand in a text. -/
def TokenKind.Spellable : TokenKind → Prop
  | .identifier name => IsName name
  | .number spelling => Lexeme.Number spelling.toList
  | _ => True

theorem TokenKind.spellable_of_spelled {kind : TokenKind} {text : List Char}
    (h : Lexeme.Spelled (.token kind) text) : kind.Spellable := by
  cases h with
  | string | keyword | mark => trivial
  | number hn => simpa [Spellable] using hn
  | @identifier text hw hk =>
    refine ⟨by simpa using hw, Option.eq_none_iff_forall_ne_some.mpr fun k he => ?_⟩
    have hs := Keyword.ofText?_eq_some_iff.mp he
    exact hk k (by rw [← hs, String.toList_ofList])

/-- **The tokens of a text are spelled by it.** -/
theorem Scan.spellable_of_mem {source : String} {scan : Scan} (h : ofText source = .ok scan) :
    ∀ t ∈ scan.tokens, t.kind.Spellable := by
  obtain ⟨ls, hl, rfl⟩ := ofText_eq_ok_iff.mp h
  have hcut := (holds_of_longestCut hl).tokens
  rw [tokens_ofLexemes, List.dropLast_concat] at hcut
  rw [tokens_ofLexemes, List.forall_mem_append, List.forall_mem_singleton]
  refine ⟨fun t ht => ?_, trivial⟩
  obtain ⟨text, -, hs⟩ := hcut t ht
  exact TokenKind.spellable_of_spelled hs

theorem Token.isName_of_kind {t : Token} (ht : t.kind.Spellable) {name : String}
    (h : t.kind = .identifier name) : IsName name := by
  rwa [h] at ht

/-! ### Rules of the grammar -/

namespace Grammar

/-- What a rule makes of the tokens of a text holds of each piece in a list. -/
theorem Many.forall_mem {α : Type} {piece : List Token → α → Prop} {good : α → Prop}
    {ts : List Token} {as : List α} (h : Many piece ts as) (ht : ∀ t ∈ ts, t.kind.Spellable)
    (hgood : ∀ us a, piece us a → (∀ t ∈ us, t.kind.Spellable) → good a) :
    ∀ a ∈ as, good a := by
  induction h with
  | nil => simp
  | cons first _ ih =>
    obtain ⟨hfirst, hlater⟩ := List.forall_mem_append.mp ht
    exact List.forall_mem_cons.mpr ⟨hgood _ _ first hfirst, ih hlater⟩

theorem Literal.wellFormed {kind : TokenKind} {value : AnnotationValue} (h : Literal kind value)
    (ht : kind.Spellable) : value.WellFormed := by
  cases h with
  | string => trivial
  | number => exact ht
  | word => exact ht

theorem AnnotationDecl.wellFormed {ts : List Token} {a : Annotation} (h : AnnotationDecl ts a)
    (ht : ∀ t ∈ ts, t.kind.Spellable) : a.WellFormed := by
  cases h with
  | bare _ hn =>
    simp only [List.forall_mem_cons] at ht
    obtain ⟨-, hword, -⟩ := ht
    exact ⟨Token.isName_of_kind hword hn, by simp⟩
  | valued _ hn _ hl _ =>
    simp only [List.forall_mem_cons] at ht
    obtain ⟨-, hword, -, hliteral, -⟩ := ht
    refine ⟨Token.isName_of_kind hword hn, ?_⟩
    rintro v ⟨⟩
    exact hl.wellFormed hliteral

theorem wellFormed_annotations {ts : List Token} {as : List Annotation}
    (h : Many AnnotationDecl ts as) (ht : ∀ t ∈ ts, t.kind.Spellable) :
    ∀ a ∈ as, a.WellFormed :=
  h.forall_mem ht fun _ _ => AnnotationDecl.wellFormed

theorem ParameterDecl.wellFormed {ts : List Token} {p : Parameter} (h : ParameterDecl ts p)
    (ht : ∀ t ∈ ts, t.kind.Spellable) : p.WellFormed := by
  obtain ⟨htype, hn⟩ := h
  simp only [List.forall_mem_cons] at ht
  obtain ⟨hty, hword, -⟩ := ht
  exact ⟨Token.isName_of_kind hty htype, Token.isName_of_kind hword hn⟩

theorem ParameterList.wellFormed {ts : List Token} {ps : List Parameter} (h : ParameterList ts ps)
    (ht : ∀ t ∈ ts, t.kind.Spellable) : ∀ p ∈ ps, p.WellFormed := by
  induction h with
  | one hp => exact List.forall_mem_singleton.mpr (hp.wellFormed ht)
  | cons hp _ _ ih =>
    obtain ⟨hfirst, hlater⟩ := List.forall_mem_append.mp ht
    have hrest := (List.forall_mem_cons.mp hlater).2
    exact List.forall_mem_cons.mpr ⟨hp.wellFormed hfirst, ih hrest⟩

theorem Parameters.wellFormed {ts : List Token} {ps : List Parameter} (h : Parameters ts ps)
    (ht : ∀ t ∈ ts, t.kind.Spellable) : ∀ p ∈ ps, p.WellFormed := by
  cases h with
  | none => simp
  | list hl => exact hl.wellFormed ht

/-- The front of a member brings a type and annotations. -/
theorem MemberStart.wellFormed {ts : List Token} {h : MemberHeading} (hs : MemberStart ts h)
    (ht : ∀ t ∈ ts, t.kind.Spellable) :
    IsName h.type ∧ ∀ a ∈ h.annotations, a.WellFormed := by
  cases hs with
  | plain ha htype =>
    obtain ⟨hfront, hlast⟩ := List.forall_mem_append.mp ht
    simp only [List.forall_mem_cons] at hlast
    exact ⟨Token.isName_of_kind hlast.1 htype, wellFormed_annotations ha hfront⟩
  | modified ha _ htype =>
    obtain ⟨hfront, hlast⟩ := List.forall_mem_append.mp ht
    simp only [List.forall_mem_cons] at hlast
    exact ⟨Token.isName_of_kind hlast.2.1 htype, wellFormed_annotations ha hfront⟩

theorem AttributeDecl.wellFormed {ts : List Token} {a : Attribute} (h : AttributeDecl ts a)
    (ht : ∀ t ∈ ts, t.kind.Spellable) : a.WellFormed := by
  obtain ⟨hs, hn, -⟩ := h
  obtain ⟨hfront, hlast⟩ := List.forall_mem_append.mp ht
  simp only [List.forall_mem_cons] at hlast
  obtain ⟨htype, hannotations⟩ := hs.wellFormed hfront
  exact ⟨Token.isName_of_kind hlast.1 hn, htype, hannotations⟩

theorem MethodDecl.wellFormed {ts : List Token} {m : Method} (h : MethodDecl ts m)
    (ht : ∀ t ∈ ts, t.kind.Spellable) : m.WellFormed := by
  obtain ⟨⟨hs, -, hn, -⟩, hp, -, -⟩ := h
  obtain ⟨hfront, -⟩ := List.forall_mem_append.mp ht
  obtain ⟨hstart, hparameters⟩ := List.forall_mem_append.mp hfront
  obtain ⟨hheading, hlast⟩ := List.forall_mem_append.mp hstart
  simp only [List.forall_mem_cons] at hlast
  obtain ⟨htype, hannotations⟩ := hs.wellFormed hheading
  exact ⟨htype, Token.isName_of_kind hlast.1 hn, hp.wellFormed hparameters, hannotations⟩

theorem MemberDecl.wellFormed {ts : List Token} {m : Member} (h : MemberDecl ts m)
    (ht : ∀ t ∈ ts, t.kind.Spellable) : m.WellFormed := by
  obtain ha | hm := h
  · exact ha.wellFormed ht
  · exact hm.wellFormed ht

/-- The front of a block brings a name and annotations. -/
theorem BlockStart.wellFormed {word : Keyword} {ts : List Token} {h : Heading}
    (hs : BlockStart word ts h) (ht : ∀ t ∈ ts, t.kind.Spellable) :
    IsName h.name ∧ ∀ a ∈ h.annotations, a.WellFormed := by
  obtain ⟨ha, -, hn, -⟩ := hs
  obtain ⟨hfront, hlast⟩ := List.forall_mem_append.mp ht
  simp only [List.forall_mem_cons] at hlast
  exact ⟨Token.isName_of_kind hlast.2.1 hn, wellFormed_annotations ha hfront⟩

theorem InterfaceDecl.wellFormed {ts : List Token} {i : Interface} (h : InterfaceDecl ts i)
    (ht : ∀ t ∈ ts, t.kind.Spellable) : i.WellFormed := by
  obtain ⟨hs, hm, -⟩ := h
  obtain ⟨hblock, -⟩ := List.forall_mem_append.mp ht
  obtain ⟨hstart, hbody⟩ := List.forall_mem_append.mp hblock
  obtain ⟨hname, hannotations⟩ := hs.wellFormed hstart
  have hmembers := hm.forall_mem hbody fun _ _ => MemberDecl.wellFormed
  refine ⟨.members .., hname, fun a ha => ?_, fun m hmem => ?_, hannotations⟩
  · obtain ⟨member, hmem, he⟩ := List.mem_filterMap.mp ha
    cases member <;> cases he
    exact hmembers _ hmem
  · obtain ⟨member, hmem, he⟩ := List.mem_filterMap.mp hmem
    cases member <;> cases he
    exact hmembers _ hmem

theorem ModuleDecl.wellFormed {ts : List Token} {m : Module} (h : ModuleDecl ts m)
    (ht : ∀ t ∈ ts, t.kind.Spellable) : m.WellFormed := by
  obtain ⟨hs, hi, -⟩ := h
  obtain ⟨hblock, -⟩ := List.forall_mem_append.mp ht
  obtain ⟨hstart, hbody⟩ := List.forall_mem_append.mp hblock
  obtain ⟨hname, hannotations⟩ := hs.wellFormed hstart
  have hinterfaces := hi.forall_mem hbody fun _ _ => InterfaceDecl.wellFormed
  exact ⟨hname, hinterfaces, hannotations⟩

/-- **What the grammar derives from the tokens of a text can be written.** -/
theorem Program.wellFormed {ts : List Token} {program : List Module} (h : Program ts program)
    (ht : ∀ t ∈ ts, t.kind.Spellable) : ∀ m ∈ program, m.WellFormed :=
  Many.forall_mem h ht fun _ _ => ModuleDecl.wellFormed

end Grammar

/-- **A program that was read is well-formed.** -/
theorem wellFormed_of_parseText {source : String} {program : List Module}
    (h : parseText source = .ok program) : WellFormed program := by
  obtain ⟨scan, hscan, hparse⟩ := parseText_eq_ok_iff.mp h
  obtain ⟨hrun, hdistinct⟩ := (Draft.read_eq_ok_iff Draft.distinct_empty).mp hparse
  refine ⟨(Draft.run_eq_some_iff.mp hrun).wellFormed fun t ht => ?_, hdistinct⟩
  exact Scan.spellable_of_mem hscan t ((List.takeWhile_sublist _).mem ht)

end Idl
