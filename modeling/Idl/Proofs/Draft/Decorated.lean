import Idl.Proofs.Draft.SpanMap

/-! # Declarations with other annotations

The annotations of a declaration stand in front of it, and the rest of its tokens does not depend on
them. So a declaration can be taken apart into its annotations and the rest, which derives the
declaration without annotations, and any annotations can be put in front of that.

* `Member.decorate`, `Interface.decorate`, `Module.decorate`: a declaration with other annotations
  of its own; `Module.bare`: one without annotations, its own and those within it.
* `Fronted`: annotations with tokens behind them that fit a rule and hold no annotation.
* `MemberDecl.fronted`, `InterfaceDecl.exists_core`, `ModuleDecl.exists_core`: a declaration taken
  apart; `MemberDecl.annotated`, `InterfaceDecl.annotated`, `ModuleDecl.annotated`: one put
  together with other annotations. -/

namespace Idl

open Grammar

/-! ### Declarations with other annotations -/

/-- An attribute without its annotations. -/
def Attribute.bare (a : Attribute) : Attribute := { a with annotations := [] }

/-- A method without its annotations. -/
def Method.bare (m : Method) : Method := { m with annotations := [] }

namespace Member

/-- A member with other annotations. -/
def decorate (m : Member) (as : List Annotation) : Member :=
  match m with
  | .attribute a => .attribute { a with annotations := as }
  | .method m => .method { m with annotations := as }

/-- A member without its annotations. -/
def bare : Member → Member
  | .attribute a => .attribute a.bare
  | .method m => .method m.bare

@[simp] theorem bare_decorate (m : Member) (as : List Annotation) :
    (m.decorate as).bare = m.bare := by
  cases m <;> rfl

theorem decorate_nil (m : Member) : m.decorate [] = m.bare := by
  cases m <;> rfl

theorem exists_decorate (m : Member) : ∃ as, m.decorate as = m := by
  obtain a | m := m
  · exact ⟨a.annotations, rfl⟩
  · exact ⟨m.annotations, rfl⟩

theorem kind_bare (m : Member) : m.bare.kind = m.kind := by
  cases m <;> rfl

theorem attribute?_bare (m : Member) : m.bare.attribute? = m.attribute?.map Attribute.bare := by
  cases m <;> rfl

theorem method?_bare (m : Member) : m.bare.method? = m.method?.map Method.bare := by
  cases m <;> rfl

end Member

namespace Interface

/-- An interface with other annotations of its own. -/
def decorate (i : Interface) (as : List Annotation) : Interface := { i with annotations := as }

/-- An interface without annotations, its own and those of its members. -/
def bare (i : Interface) : Interface :=
  { i with
    attributes := i.attributes.map Attribute.bare
    methods := i.methods.map Method.bare
    annotations := [] }

@[simp] theorem bare_decorate (i : Interface) (as : List Annotation) :
    (i.decorate as).bare = i.bare := rfl

@[simp] theorem bare_ofMembers (name : String) (members : List Member)
    (annotations : List Annotation) (span : Span) :
    (ofMembers name members annotations span).bare =
      ofMembers name (members.map Member.bare) [] span := by
  simp only [bare, ofMembers, List.filterMap_map, List.map_filterMap, List.map_map,
    Function.comp_def, Member.attribute?_bare, Member.method?_bare, Member.kind_bare]

theorem distinct_bare (i : Interface) : i.bare.Distinct ↔ i.Distinct := by
  simp only [Distinct, bare, List.map_map]
  rfl

end Interface

namespace Module

/-- A module with other annotations of its own. -/
def decorate (m : Module) (as : List Annotation) : Module := { m with annotations := as }

/-- **A module without annotations**, its own and those within it. -/
def bare (m : Module) : Module :=
  { m with interfaces := m.interfaces.map Interface.bare, annotations := [] }

@[simp] theorem bare_decorate (m : Module) (as : List Annotation) :
    (m.decorate as).bare = m.bare := rfl

theorem distinct_bare (m : Module) : m.bare.Distinct ↔ m.Distinct :=
  distinctBy_map Interface.name (g := Interface.bare) (fun _ => rfl) Interface.distinct_bare
    m.interfaces

end Module

/-- Annotations have no part in whether names are apart. -/
theorem distinctNames_bare {program : List Module} :
    DistinctNames (program.map Module.bare) ↔ DistinctNames program :=
  distinctBy_map Module.name (g := Module.bare) (fun _ => rfl) Module.distinct_bare program

namespace Grammar

/-! ### Annotations in front of a declaration -/

section Many
variable {α : Type} {piece : List Token → α → Prop}

/-- The tokens of a list of pieces split where the list does. -/
theorem Many.exists_split {ts : List Token} {as bs : List α} (h : Many piece ts (as ++ bs)) :
    ∃ us vs, ts = us ++ vs ∧ Many piece us as ∧ Many piece vs bs := by
  induction as generalizing ts with
  | nil => exact ⟨[], ts, rfl, .nil, h⟩
  | cons a as ih =>
    obtain _ | ⟨first, later⟩ := h
    obtain ⟨us, vs, rfl, hu, hv⟩ := ih later
    exact ⟨_, vs, (List.append_assoc ..).symm, .cons first hu, hv⟩

/-- One piece of a list, with the tokens before it and behind it. -/
theorem Many.exists_middle {ts : List Token} {as bs : List α} {a : α}
    (h : Many piece ts (as ++ a :: bs)) :
    ∃ us vs ws, ts = us ++ (vs ++ ws) ∧ Many piece us as ∧ piece vs a ∧ Many piece ws bs := by
  obtain ⟨us, vs, rfl, hu, hv⟩ := h.exists_split
  obtain _ | ⟨first, later⟩ := hv
  exact ⟨us, _, _, rfl, hu, first, later⟩

end Many

/-- A token of a declaration behind its annotations. -/
def Plain (t : Token) : Prop := t.isEnd = false ∧ t.isMark .atSign = false

theorem plain_of_kind {t : Token} {kind : TokenKind} (hk : t.kind = kind)
    (he : kind ≠ .endOfInput) (ha : kind ≠ .punctuation .atSign) : Plain t := by
  constructor
  · simpa [Token.isEnd, hk] using he
  · simpa [Token.isMark, hk] using ha

/-- Some tokens are annotations with tokens behind them that fit a rule, among them no further
annotation. The first of these tokens does not go on with the last annotation. -/
def Fronted (as : List Annotation) (rule : List Token → Prop) (ts : List Token) : Prop :=
  ∃ run t core, ts = run ++ t :: core ∧ Many AnnotationDecl run as ∧ rule (t :: core) ∧
    t.isMark .openParen = false ∧ ∀ u ∈ t :: core, Plain u

theorem Fronted.append {as : List Annotation} {rule rule' : List Token → Prop}
    {ts vs : List Token} (h : Fronted as rule ts) (hv : ∀ u ∈ vs, Plain u)
    (hr : ∀ core, rule core → rule' (core ++ vs)) : Fronted as rule' (ts ++ vs) := by
  obtain ⟨run, t, core, rfl, ha, hcore, hopen, hplain⟩ := h
  refine ⟨run, t, core ++ vs, by simp, ha, hr _ hcore, hopen, ?_⟩
  rw [← List.cons_append, List.forall_mem_append]
  exact ⟨hplain, hv⟩

theorem Fronted.mono {as : List Annotation} {rule rule' : List Token → Prop} {ts : List Token}
    (h : Fronted as rule ts) (hr : ∀ core, rule core → rule' core) : Fronted as rule' ts := by
  obtain ⟨run, t, core, hts, ha, hcore, hfirst⟩ := h
  exact ⟨run, t, core, hts, ha, hr _ hcore, hfirst⟩

/-! ### Members -/

theorem MemberStart.fronted {ts : List Token} {h : MemberHeading} (hs : MemberStart ts h) :
    Fronted h.annotations (MemberStart · { h with annotations := [] }) ts := by
  cases hs with
  | @plain run type annotations typeName ha ht =>
    refine ⟨run, type, [], rfl, ha, .plain .nil ht, by simp [Token.isMark, ht], ?_⟩
    simp [plain_of_kind ht]
  | @modified run modifier type annotations v typeName ha hm ht =>
    have hmodifier : modifier.isMark .openParen = false ∧ Plain modifier := by
      generalize hk : modifier.kind = kind at hm
      cases hm <;> simp [Plain, Token.isEnd, Token.isMark, hk]
    refine ⟨run, modifier, [type], rfl, ha, .modified .nil hm ht, hmodifier.1, ?_⟩
    simp [hmodifier.2, plain_of_kind ht]

theorem MemberStart.annotated {core run : List Token} {h : MemberHeading} {as : List Annotation}
    (hs : MemberStart core { h with annotations := [] }) (ha : Many AnnotationDecl run as) :
    MemberStart (run ++ core) { h with annotations := as } := by
  obtain ⟨annotations, modifier, type⟩ := h
  cases hs with
  | plain hnil ht =>
    obtain rfl := Draft.eq_nil_of_many hnil
    exact .plain ha ht
  | modified hnil hm ht =>
    obtain rfl := Draft.eq_nil_of_many hnil
    exact .modified ha hm ht

theorem AttributeDecl.fronted {ts : List Token} {a : Attribute} (h : AttributeDecl ts a) :
    Fronted a.annotations (AttributeDecl · a.bare) ts := by
  obtain @⟨_, word, semicolon, heading, name, hs, hn, he⟩ := h
  have hv : ∀ u ∈ [word, semicolon], Plain u := by simp [plain_of_kind hn, plain_of_kind he]
  exact hs.fronted.append hv fun core hcore => .mk hcore hn he

theorem AttributeDecl.annotated {core run : List Token} {a : Attribute} {as : List Annotation}
    (h : AttributeDecl core a.bare) (ha : Many AnnotationDecl run as) :
    AttributeDecl (run ++ core) { a with annotations := as } := by
  generalize hbare : a.bare = bare at h
  have hbody : { a with annotations := as } = { bare with annotations := as } := by
    rw [← hbare]; rfl
  have hnil : bare.annotations = [] := by rw [← hbare]; rfl
  obtain @⟨ts, word, semicolon, heading, name, hs, hn, he⟩ := h
  have hstart : MemberStart ts { heading with annotations := [] } := by rwa [← hnil]
  rw [hbody, ← List.append_assoc]
  exact .mk (hstart.annotated ha) hn he

theorem plain_of_parameter {ts : List Token} {p : Parameter} (h : ParameterDecl ts p) :
    ∀ u ∈ ts, Plain u := by
  obtain ⟨ht, hn⟩ := h
  simp [plain_of_kind ht, plain_of_kind hn]

theorem plain_of_parameterList {ts : List Token} {ps : List Parameter}
    (h : ParameterList ts ps) : ∀ u ∈ ts, Plain u := by
  induction h with
  | one hp => exact plain_of_parameter hp
  | cons hp hc _ ih =>
    rw [List.forall_mem_append, List.forall_mem_cons]
    exact ⟨plain_of_parameter hp, plain_of_kind hc (by simp) (by simp), ih⟩

theorem plain_of_parameters {ts : List Token} {ps : List Parameter} (h : Parameters ts ps) :
    ∀ u ∈ ts, Plain u := by
  obtain _ | ⟨h⟩ := h
  · simp
  · exact plain_of_parameterList h

theorem MethodDecl.fronted {ts : List Token} {m : Method} (h : MethodDecl ts m) :
    Fronted m.annotations (MethodDecl · m.bare) ts := by
  obtain @⟨_, us, closing, semicolon, _, ps, hm, hp, hc, he⟩ := h
  obtain @⟨ts, word, opening, heading, name, hs, hmod, hn, ho⟩ := hm
  have hstart : ∀ u ∈ [word, opening], Plain u := by simp [plain_of_kind hn, plain_of_kind ho]
  have hend : ∀ u ∈ [closing, semicolon], Plain u := by simp [plain_of_kind hc, plain_of_kind he]
  have hv : ∀ u ∈ [word, opening] ++ us ++ [closing, semicolon], Plain u := by
    rw [List.forall_mem_append, List.forall_mem_append]
    exact ⟨⟨hstart, plain_of_parameters hp⟩, hend⟩
  rw [List.append_assoc, List.append_assoc, ← List.append_assoc [word, opening]]
  refine hs.fronted.append hv fun core hcore => ?_
  rw [← List.append_assoc, ← List.append_assoc]
  exact .mk (.mk hcore hmod hn ho) hp hc he

theorem MethodDecl.annotated {core run : List Token} {m : Method} {as : List Annotation}
    (h : MethodDecl core m.bare) (ha : Many AnnotationDecl run as) :
    MethodDecl (run ++ core) { m with annotations := as } := by
  generalize hbare : m.bare = bare at h
  have hbody : { m with annotations := as } = { bare with annotations := as } := by
    rw [← hbare]; rfl
  have hnil : bare.annotations = [] := by rw [← hbare]; rfl
  obtain @⟨_, us, closing, semicolon, _, ps, hm, hp, hc, he⟩ := h
  obtain @⟨ts, word, opening, heading, name, hs, hmod, hn, ho⟩ := hm
  have hstart : MemberStart ts { heading with annotations := [] } := by rwa [← hnil]
  rw [hbody, ← List.append_assoc, ← List.append_assoc, ← List.append_assoc]
  exact .mk (.mk (hstart.annotated ha) hmod hn ho) hp hc he

/-- A member is its annotations and the rest, which has none. -/
theorem MemberDecl.fronted {ts : List Token} {m : Member} {as : List Annotation}
    (h : MemberDecl ts (m.decorate as)) : Fronted as (MemberDecl · (m.decorate [])) ts := by
  obtain a | m := m
  · obtain ⟨h⟩ | _ := h
    exact h.fronted.mono fun core hcore => .attribute hcore
  · obtain _ | ⟨h⟩ := h
    exact h.fronted.mono fun core hcore => .method hcore

/-- Annotations can be put in front of a member that has none. -/
theorem MemberDecl.annotated {core run : List Token} {m : Member} {as : List Annotation}
    (h : MemberDecl core (m.decorate [])) (ha : Many AnnotationDecl run as) :
    MemberDecl (run ++ core) (m.decorate as) := by
  obtain a | m := m
  · obtain ⟨h⟩ | _ := h
    exact .attribute (AttributeDecl.annotated (a := a) h ha)
  · obtain _ | ⟨h⟩ := h
    exact .method (MethodDecl.annotated (m := m) h ha)

/-! ### Blocks -/

theorem BlockStart.fronted {word : Keyword} {ts : List Token} {h : Heading}
    (hs : BlockStart word ts h) :
    Fronted h.annotations (BlockStart word · { h with annotations := [] }) ts := by
  obtain @⟨run, keyword, label, brace, annotations, name, ha, hk, hn, hb⟩ := hs
  refine ⟨run, keyword, [label, brace], rfl, ha, .mk .nil hk hn hb, by simp [Token.isMark, hk], ?_⟩
  simp [plain_of_kind hk, plain_of_kind hn, plain_of_kind hb]

theorem BlockStart.annotated {word : Keyword} {core run : List Token} {h : Heading}
    {as : List Annotation} (hs : BlockStart word core { h with annotations := [] })
    (ha : Many AnnotationDecl run as) :
    BlockStart word (run ++ core) { h with annotations := as } := by
  obtain ⟨annotations, name, span⟩ := h
  obtain @⟨_, keyword, label, brace, _, _, hnil, hk, hn, hb⟩ := hs
  obtain rfl := Draft.eq_nil_of_many hnil
  exact .mk ha hk hn hb

/-- An interface is its annotations and the rest, which has none of its own. -/
theorem InterfaceDecl.exists_core {ts : List Token} {i : Interface} {as : List Annotation}
    (h : InterfaceDecl ts (i.decorate as)) :
    ∃ run core, ts = run ++ core ∧ Many AnnotationDecl run as ∧
      InterfaceDecl core (i.decorate []) := by
  generalize hi : i.decorate as = i' at h
  have hcore : i.decorate [] = i'.decorate [] := by rw [← hi]; rfl
  have has : as = i'.annotations := by rw [← hi]; rfl
  obtain @⟨_, us, brace, heading, members, hs, hm, hb⟩ := h
  obtain ⟨run, t, core, rfl, ha, hblock, -⟩ := hs.fronted
  refine ⟨run, t :: core ++ us ++ [brace], by simp, has ▸ ha, ?_⟩
  rw [hcore]
  exact .mk hblock hm hb

/-- Annotations can be put in front of an interface that has none of its own. -/
theorem InterfaceDecl.annotated {core run : List Token} {i : Interface} {as : List Annotation}
    (h : InterfaceDecl core (i.decorate [])) (ha : Many AnnotationDecl run as) :
    InterfaceDecl (run ++ core) (i.decorate as) := by
  generalize hi : i.decorate [] = i' at h
  have hbody : i.decorate as = i'.decorate as := by rw [← hi]; rfl
  have hnil : i'.annotations = [] := by rw [← hi]; rfl
  obtain @⟨ts, us, brace, heading, members, hs, hm, hb⟩ := h
  have hstart : BlockStart .interface ts { heading with annotations := [] } := by rwa [← hnil]
  rw [hbody, ← List.append_assoc, ← List.append_assoc]
  exact .mk (hstart.annotated ha) hm hb

/-- A module is its annotations and the rest, which has none of its own. -/
theorem ModuleDecl.exists_core {ts : List Token} {m : Module} {as : List Annotation}
    (h : ModuleDecl ts (m.decorate as)) :
    ∃ run core, ts = run ++ core ∧ Many AnnotationDecl run as ∧
      ModuleDecl core (m.decorate []) := by
  generalize hm : m.decorate as = m' at h
  have hcore : m.decorate [] = m'.decorate [] := by rw [← hm]; rfl
  have has : as = m'.annotations := by rw [← hm]; rfl
  obtain @⟨_, us, brace, heading, interfaces, hs, hi, hb⟩ := h
  obtain ⟨run, t, core, rfl, ha, hblock, -⟩ := hs.fronted
  refine ⟨run, t :: core ++ us ++ [brace], by simp, has ▸ ha, ?_⟩
  rw [hcore]
  exact .mk hblock hi hb

/-- Annotations can be put in front of a module that has none of its own. -/
theorem ModuleDecl.annotated {core run : List Token} {m : Module} {as : List Annotation}
    (h : ModuleDecl core (m.decorate [])) (ha : Many AnnotationDecl run as) :
    ModuleDecl (run ++ core) (m.decorate as) := by
  generalize hm : m.decorate [] = m' at h
  have hbody : m.decorate as = m'.decorate as := by rw [← hm]; rfl
  have hnil : m'.annotations = [] := by rw [← hm]; rfl
  obtain @⟨ts, us, brace, heading, interfaces, hs, hi, hb⟩ := h
  have hstart : BlockStart .module ts { heading with annotations := [] } := by rwa [← hnil]
  rw [hbody, ← List.append_assoc, ← List.append_assoc]
  exact .mk (hstart.annotated ha) hi hb

end Grammar

end Idl
