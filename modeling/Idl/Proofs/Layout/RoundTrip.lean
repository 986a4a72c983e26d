import Idl.Proofs.Draft.SpanMap
import Idl.Proofs.Layout.Kinds

/-! # Writing and reading

The text of a well-formed program is parsed into the program again, up to spans, in every layout.
The grammar derives the program from the tokens it is written with (`program_kinds`), apart from
where they stand; so the tokens of its text are parsed into it (`exists_parse_of_kinds`), because
parsing looks at the kinds of tokens only.

* `parseText_format_eraseSpans`: a text laid out from a program is read as that program. -/

namespace Idl

open Grammar

/-! ### Derivations of written tokens -/

theorem many_flatMap {α β : Type} {piece : List Token → β → Prop} {kinds : α → List TokenKind}
    {g : α → β} {as : List α} (h : ∀ a ∈ as, piece ((kinds a).map TokenKind.token) (g a)) :
    Many piece ((as.flatMap kinds).map TokenKind.token) (as.map g) := by
  induction as with
  | nil => exact .nil
  | cons a as ih =>
    obtain ⟨ha, has⟩ := List.forall_mem_cons.mp h
    rw [List.flatMap_cons, List.map_append]
    exact .cons ha (ih has)

/-- Annotations are derived from their tokens. -/
theorem many_annotations (as : List Annotation) :
    Many AnnotationDecl ((as.flatMap Annotation.kinds).map TokenKind.token)
      (as.map (·.mapSpan fun _ => .nowhere)) := by
  refine many_flatMap fun a _ => ?_
  obtain ⟨name, value, span⟩ := a
  cases value with
  | none => exact .bare rfl rfl
  | some v =>
    have hv : Literal v.kind v := by
      cases v with
      | string value => exact .string value
      | number spelling => exact .number spelling
      | word name => exact .word name
    exact .valued rfl rfl rfl hv rfl

/-- Parameters are derived from their tokens, with commas between them. -/
theorem parameters_listKinds (ps : List Parameter) :
    Parameters ((Parameter.listKinds ps).map TokenKind.token)
      (ps.map (·.mapSpan fun _ => .nowhere)) := by
  have hlist : ∀ (p : Parameter) (ps : List Parameter),
      ParameterList ((Parameter.listKinds (p :: ps)).map TokenKind.token)
        ((p :: ps).map (·.mapSpan fun _ => .nowhere)) := by
    intro p ps
    induction ps generalizing p with
    | nil => exact .one (.mk rfl rfl)
    | cons q ps ih =>
      have hp : ParameterDecl (p.kinds.map TokenKind.token) (p.mapSpan fun _ => .nowhere) :=
        .mk rfl rfl
      have hl : ParameterList (p.kinds.map TokenKind.token ++
          TokenKind.token (.punctuation .comma) ::
            (Parameter.listKinds (q :: ps)).map TokenKind.token) _ := .cons hp rfl (ih q)
      simpa [Parameter.listKinds] using hl
  cases ps with
  | nil => exact .none
  | cons p ps => exact .list (hlist p ps)

namespace Layout

variable (l : Layout)

/-- An attribute is derived from its tokens: a modifier that is not written is the one that makes no
difference. -/
theorem attributeDecl_kinds (a : Attribute) :
    AttributeDecl ((l.memberKinds (.attribute a)).map TokenKind.token)
      (a.mapSpan fun _ => .nowhere) := by
  obtain ⟨name, type, v, annotations, span⟩ := a
  have ha := many_annotations annotations
  by_cases hv : v ≠ .readWrite ∨ l.explicitReadWrite = true
  · have hk : l.modifierKinds v = [.keyword v.keyword] := if_pos hv
    have hm : Modifies (.keyword v.keyword) v := by
      cases v with
      | readOnly => exact .readonly
      | writeOnly => exact .writeonly
      | readWrite => exact .readwrite
    have hs : MemberStart (_ ++ [TokenKind.token (.keyword v.keyword),
        TokenKind.token (.identifier type)]) ⟨_, some ⟨v, .nowhere⟩, type⟩ := .modified ha hm rfl
    have hd : AttributeDecl (_ ++ [TokenKind.token (.identifier name),
        TokenKind.token (.punctuation .semicolon)]) ⟨name, type, v, _, .nowhere⟩ := .mk hs rfl rfl
    simpa [memberKinds, memberAnnotations, bareMemberKinds, hk, Attribute.mapSpan] using hd
  · have hk : l.modifierKinds v = [] := if_neg hv
    obtain rfl : v = .readWrite := by
      rw [not_or, not_not] at hv
      exact hv.1
    have hs : MemberStart (_ ++ [TokenKind.token (.identifier type)]) ⟨_, none, type⟩ :=
      .plain ha rfl
    have hd : AttributeDecl (_ ++ [TokenKind.token (.identifier name),
        TokenKind.token (.punctuation .semicolon)]) ⟨name, type, .readWrite, _, .nowhere⟩ :=
      .mk hs rfl rfl
    simpa [memberKinds, memberAnnotations, bareMemberKinds, hk, Attribute.mapSpan] using hd

theorem methodDecl_kinds (m : Method) :
    MethodDecl ((l.memberKinds (.method m)).map TokenKind.token) (m.mapSpan fun _ => .nowhere) := by
  have hs : MemberStart (_ ++ [TokenKind.token (.identifier m.returnType)])
      ⟨_, none, m.returnType⟩ := .plain (many_annotations m.annotations) rfl
  have hstart : MethodStart (_ ++ [TokenKind.token (.identifier m.name),
      TokenKind.token (.punctuation .openParen)]) ⟨m.returnType, m.name, [], _, .nowhere⟩ :=
    .mk hs rfl rfl rfl
  have hd : MethodDecl (_ ++ _ ++ [TokenKind.token (.punctuation .closeParen),
      TokenKind.token (.punctuation .semicolon)]) (m.mapSpan fun _ => .nowhere) :=
    .mk hstart (parameters_listKinds m.parameters) rfl rfl
  simpa [memberKinds, memberAnnotations, bareMemberKinds, Method.kinds] using hd

theorem many_members (members : List Member) :
    Many MemberDecl ((members.flatMap l.memberKinds).map TokenKind.token)
      (members.map (·.mapSpan fun _ => .nowhere)) := by
  refine many_flatMap fun m _ => ?_
  obtain a | b := m
  · exact .attribute (l.attributeDecl_kinds a)
  · exact .method (l.methodDecl_kinds b)

/-- The front of a block is derived from its tokens. -/
theorem blockStart_kinds (word : Keyword) (name : String) (annotations : List Annotation) :
    BlockStart word (List.map TokenKind.token (annotations.flatMap Annotation.kinds ++
        [.keyword word, .identifier name, .punctuation .openBrace]))
      ⟨annotations.map (·.mapSpan fun _ => .nowhere), name, .nowhere⟩ := by
  rw [List.map_append]
  exact .mk (many_annotations annotations) rfl rfl rfl

theorem interfaceDecl_kinds {i : Interface} (h : i.Built) :
    InterfaceDecl ((l.interfaceKinds i).map TokenKind.token) (i.mapSpan fun _ => .nowhere) := by
  have he : i.mapSpan (fun _ => .nowhere) = .ofMembers i.name
      (i.members.map (·.mapSpan fun _ => .nowhere))
      (i.annotations.map (·.mapSpan fun _ => .nowhere)) .nowhere := by
    conv_lhs => rw [h.eq_ofMembers, Interface.mapSpan_ofMembers]
  have hd : InterfaceDecl (_ ++ _ ++ [TokenKind.token (.punctuation .closeBrace)]) _ :=
    .mk (blockStart_kinds .interface i.name i.annotations) (l.many_members i.members) rfl
  rw [he]
  simpa [interfaceKinds, blockKinds] using hd

theorem moduleDecl_kinds {m : Module} (h : ∀ i ∈ m.interfaces, i.Built) :
    ModuleDecl ((l.moduleKinds m).map TokenKind.token) (m.mapSpan fun _ => .nowhere) := by
  have hi : Many InterfaceDecl ((m.interfaces.flatMap l.interfaceKinds).map TokenKind.token)
      (m.interfaces.map (·.mapSpan fun _ => .nowhere)) :=
    many_flatMap fun i hi => l.interfaceDecl_kinds (h i hi)
  have hd : ModuleDecl (_ ++ _ ++ [TokenKind.token (.punctuation .closeBrace)]) _ :=
    .mk (blockStart_kinds .module m.name m.annotations) hi rfl
  simpa [moduleKinds, blockKinds, Module.mapSpan] using hd

/-- **The grammar derives a program from the tokens it is written with.** -/
theorem program_kinds {program : List Module} (h : ∀ m ∈ program, ∀ i ∈ m.interfaces, i.Built) :
    Program ((l.kinds program).map TokenKind.token) (eraseSpans program) :=
  many_flatMap fun m hm => l.moduleDecl_kinds (h m hm)

end Layout

/-! ### Reading what was written -/

/-- **Tokens of the kinds that a program is written with are parsed into it**, up to spans. -/
theorem exists_parse_of_kinds (l : Layout) {program : List Module} (h : WellFormed program)
    {ts : List Token} (hts : ts.map Token.kind = l.kinds program ++ [.endOfInput]) :
    ∃ program', parse ts = .ok program' ∧ eraseSpans program' = eraseSpans program := by
  have hbare : ts.map (fun t => t.kind.token) =
      (l.kinds program).map TokenKind.token ++ [TokenKind.token .endOfInput] := by
    have he := congrArg (List.map TokenKind.token) hts
    rwa [List.map_map, List.map_append] at he
  -- Apart from spans the tokens are those of a derivation of the program.
  have hrun := Draft.run_eq_some_iff.mpr
    (l.program_kinds fun m hm i hi => ((h.modules m hm).interfaces i hi).built)
  have hparse : parse (ts.map fun t => t.kind.token) = .ok (eraseSpans program) := by
    refine (Draft.read_eq_ok_iff Draft.distinct_empty).mpr ⟨?_, ?_⟩
    · rwa [hbare, Draft.beforeEnd_of_run hrun rfl]
    · exact (distinctNames_mapSpan fun _ => .nowhere).mpr h.distinct
  rw [parse_eraseSpans (Token.exists_end hts)] at hparse
  cases hp : parse ts with
  | error e =>
    rw [hp] at hparse
    cases hparse
  | ok program' =>
    rw [hp] at hparse
    exact ⟨program', rfl, Except.ok.inj hparse⟩

/-- **A program that is laid out and read again is the same up to spans**, in every layout. -/
theorem parseText_format_eraseSpans (l : Layout) {program : List Module} (h : WellFormed program) :
    ∃ program', parseText (l.format program) = .ok program' ∧
      eraseSpans program' = eraseSpans program := by
  obtain ⟨scan, hs, hkinds, -⟩ := l.ofText_format h.modules
  obtain ⟨program', hp, he⟩ := exists_parse_of_kinds l h hkinds
  exact ⟨program', parseText_eq_ok_iff.mpr ⟨scan, hs, hp⟩, he⟩

/-- A program with a method between attributes, an interface without members, and all sorts of
literals. -/
def specimen : List Module :=
  [⟨"store",
    [.ofMembers "Shelf"
      [.attribute ⟨"size", "u32", .readOnly, [⟨"least", some (.number "-1.50"), .nowhere⟩],
          .nowhere⟩,
        .method ⟨"Book", "find", [⟨"text", "title", .nowhere⟩, ⟨"u32", "_1", .nowhere⟩], [],
          .nowhere⟩,
        .attribute ⟨"find", "text", .readWrite, [], .nowhere⟩]
      [] .nowhere,
      .ofGroups "Empty" [] [] [⟨"since", some (.word "v1"), .nowhere⟩] .nowhere],
    [⟨"doc", some (.string "a \"quoted\"\n\ttext\\ ⟨é\x00⟩ // no comment"), .nowhere⟩,
      ⟨"stable", none, .nowhere⟩],
    .nowhere⟩]

theorem parseText_format_specimen : WellFormed specimen ∧
    ∃ program', parseText (Layout.format ⟨3, 2, true⟩ specimen) = .ok program' ∧
      eraseSpans program' = eraseSpans specimen := by
  have h : WellFormed specimen := by decide +kernel
  exact ⟨h, parseText_format_eraseSpans ⟨3, 2, true⟩ h⟩

end Idl
