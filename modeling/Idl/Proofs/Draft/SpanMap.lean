import Idl.Proofs.Draft.Names

/-! # Moving spans

A map of spans moves everything that has one: tokens, declarations, drafts and errors. The grammar
looks at the kinds of the tokens only, and the one thing it computes from spans is the range of an
annotation. So a map that respects this range (`f (a.merge b) = (f a).merge (f b)`) can be applied
before reading or behind it: the step (`advance_mapSpan`, `step_mapSpan`) and the run
(`read_mapSpan`) commute with it.

* `distinctNames_mapSpan`: whether names are apart does not depend on where they stand.
* `eraseSpans`: a program in which all spans are the same, which is what it is apart from where it
  stands in a text.
* `parse_eraseSpans`: lists of tokens of the same kinds are parsed alike up to spans. -/

namespace Idl

/-! ### Tokens and declarations -/

/-- A token at another place. -/
def Token.mapSpan (f : Span → Span) (t : Token) : Token := { t with span := f t.span }

/-- An annotation at another place. -/
def Annotation.mapSpan (f : Span → Span) (a : Annotation) : Annotation :=
  { a with span := f a.span }

/-- An attribute at another place. -/
def Attribute.mapSpan (f : Span → Span) (a : Attribute) : Attribute :=
  { a with annotations := a.annotations.map (·.mapSpan f), span := f a.span }

/-- A parameter at another place. -/
def Parameter.mapSpan (f : Span → Span) (p : Parameter) : Parameter := { p with span := f p.span }

/-- A method at another place. -/
def Method.mapSpan (f : Span → Span) (m : Method) : Method :=
  { m with
    parameters := m.parameters.map (·.mapSpan f)
    annotations := m.annotations.map (·.mapSpan f)
    span := f m.span }

/-- A member at another place. -/
def Member.mapSpan (f : Span → Span) : Member → Member
  | .attribute a => .attribute (a.mapSpan f)
  | .method m => .method (m.mapSpan f)

/-- An interface at another place. -/
def Interface.mapSpan (f : Span → Span) (i : Interface) : Interface :=
  { i with
    attributes := i.attributes.map (·.mapSpan f)
    methods := i.methods.map (·.mapSpan f)
    annotations := i.annotations.map (·.mapSpan f)
    span := f i.span }

/-- A module at another place. -/
def Module.mapSpan (f : Span → Span) (m : Module) : Module :=
  { m with
    interfaces := m.interfaces.map (·.mapSpan f)
    annotations := m.annotations.map (·.mapSpan f)
    span := f m.span }

section Declarations
variable (f : Span → Span)

theorem Member.attribute?_mapSpan (m : Member) :
    (m.mapSpan f).attribute? = m.attribute?.map (·.mapSpan f) := by
  cases m <;> rfl

theorem Member.method?_mapSpan (m : Member) :
    (m.mapSpan f).method? = m.method?.map (·.mapSpan f) := by
  cases m <;> rfl

theorem filterMap_attribute?_mapSpan (ms : List Member) :
    (ms.map (·.mapSpan f)).filterMap Member.attribute? =
      (ms.filterMap Member.attribute?).map (·.mapSpan f) := by
  simp only [List.filterMap_map, List.map_filterMap, Function.comp_def, Member.attribute?_mapSpan]

theorem filterMap_method?_mapSpan (ms : List Member) :
    (ms.map (·.mapSpan f)).filterMap Member.method? =
      (ms.filterMap Member.method?).map (·.mapSpan f) := by
  simp only [List.filterMap_map, List.map_filterMap, Function.comp_def, Member.method?_mapSpan]

/-- An interface is moved by moving its members. -/
theorem Interface.mapSpan_ofMembers (name : String) (members : List Member)
    (annotations : List Annotation) (span : Span) :
    (ofMembers name members annotations span).mapSpan f =
      ofMembers name (members.map (·.mapSpan f)) (annotations.map (·.mapSpan f))
        (f span) := by
  have hkind : ∀ m : Member, (m.mapSpan f).kind = m.kind := by
    intro m
    cases m <;> rfl
  simp only [mapSpan, ofMembers, filterMap_attribute?_mapSpan, filterMap_method?_mapSpan,
    List.map_map, Function.comp_def, hkind]

end Declarations

/-! ### Drafts and errors -/

/-- A heading at another place. -/
def Heading.mapSpan (f : Span → Span) (h : Heading) : Heading :=
  { h with annotations := h.annotations.map (·.mapSpan f), span := f h.span }

/-- An open module at another place. -/
def ModuleBody.mapSpan (f : Span → Span) (b : ModuleBody) : ModuleBody :=
  ⟨b.modules.map (·.mapSpan f), b.heading.mapSpan f, b.interfaces.map (·.mapSpan f)⟩

/-- An open interface at another place. -/
def InterfaceBody.mapSpan (f : Span → Span) (b : InterfaceBody) : InterfaceBody :=
  ⟨b.outer.mapSpan f, b.heading.mapSpan f, b.members.map (·.mapSpan f)⟩

/-- A scope at another place. -/
def Scope.mapSpan (f : Span → Span) : Scope → Scope
  | .program modules => .program (modules.map (·.mapSpan f))
  | .module body => .module (body.mapSpan f)
  | .interface body => .interface (body.mapSpan f)

/-- A modifier at another place. -/
def Modifier.mapSpan (f : Span → Span) (m : Modifier) : Modifier := { m with span := f m.span }

/-- The front of a member at another place. -/
def MemberHeading.mapSpan (f : Span → Span) (h : MemberHeading) : MemberHeading :=
  { h with
    annotations := h.annotations.map (·.mapSpan f)
    modifier := h.modifier.map (·.mapSpan f) }

/-- A draft at another place. -/
def Draft.mapSpan (f : Span → Span) : Draft → Draft
  | .ready scope pending => .ready (scope.mapSpan f) (pending.map (·.mapSpan f))
  | .annotationSign scope pending sign =>
    .annotationSign (scope.mapSpan f) (pending.map (·.mapSpan f)) (f sign)
  | .annotationName scope pending sign name span =>
    .annotationName (scope.mapSpan f) (pending.map (·.mapSpan f)) (f sign) name (f span)
  | .annotationOpen scope pending sign name =>
    .annotationOpen (scope.mapSpan f) (pending.map (·.mapSpan f)) (f sign) name
  | .annotationValue scope pending sign name value =>
    .annotationValue (scope.mapSpan f) (pending.map (·.mapSpan f)) (f sign) name value
  | .moduleKeyword modules annotations =>
    .moduleKeyword (modules.map (·.mapSpan f)) (annotations.map (·.mapSpan f))
  | .moduleName modules heading =>
    .moduleName (modules.map (·.mapSpan f)) (heading.mapSpan f)
  | .interfaceKeyword body annotations =>
    .interfaceKeyword (body.mapSpan f) (annotations.map (·.mapSpan f))
  | .interfaceName body heading => .interfaceName (body.mapSpan f) (heading.mapSpan f)
  | .memberModifier body annotations modifier =>
    .memberModifier (body.mapSpan f) (annotations.map (·.mapSpan f)) (modifier.mapSpan f)
  | .memberType body heading => .memberType (body.mapSpan f) (heading.mapSpan f)
  | .memberName body heading name span =>
    .memberName (body.mapSpan f) (heading.mapSpan f) name (f span)
  | .parametersOpen body method => .parametersOpen (body.mapSpan f) (method.mapSpan f)
  | .parameterComma body method => .parameterComma (body.mapSpan f) (method.mapSpan f)
  | .parameterType body method type => .parameterType (body.mapSpan f) (method.mapSpan f) type
  | .parameterName body method => .parameterName (body.mapSpan f) (method.mapSpan f)
  | .parametersClose body method => .parametersClose (body.mapSpan f) (method.mapSpan f)

/-- An error at another place. -/
def ParseError.mapSpan (f : Span → Span) : ParseError → ParseError
  | .unexpectedToken expected token => .unexpectedToken expected (token.mapSpan f)
  | .trailingInput token => .trailingInput (token.mapSpan f)
  | .dangling token tag => .dangling (token.mapSpan f) (f tag)
  | .duplicateName what name span first => .duplicateName what name (f span) (f first)
  | .visibilityOnMethod name modifier => .visibilityOnMethod name (f modifier)

/-! ### What spans have no part in -/

section Views
variable (f : Span → Span)

@[simp] theorem Token.kind_mapSpan (t : Token) : (t.mapSpan f).kind = t.kind := rfl

@[simp] theorem Token.span_mapSpan (t : Token) : (t.mapSpan f).span = f t.span := rfl

@[simp] theorem Token.isEnd_mapSpan (t : Token) : (t.mapSpan f).isEnd = t.isEnd := rfl

@[simp] theorem Token.isMark_mapSpan (t : Token) (mark : Punctuation) :
    (t.mapSpan f).isMark mark = t.isMark mark := rfl

@[simp] theorem Token.isWord_mapSpan (t : Token) (word : Keyword) :
    (t.mapSpan f).isWord word = t.isWord word := rfl

@[simp] theorem Token.name?_mapSpan (t : Token) : (t.mapSpan f).name? = t.name? := rfl

@[simp] theorem Token.literal?_mapSpan (t : Token) : (t.mapSpan f).literal? = t.literal? := rfl

@[simp] theorem Token.visibility?_mapSpan (t : Token) :
    (t.mapSpan f).visibility? = t.visibility? := rfl

theorem ModuleBody.close_mapSpan (b : ModuleBody) :
    (b.mapSpan f).close = b.close.map (·.mapSpan f) := by
  simp [close, mapSpan, Module.mapSpan, Heading.mapSpan]

theorem InterfaceBody.close_mapSpan (b : InterfaceBody) :
    (b.mapSpan f).close = b.close.mapSpan f := by
  simp [close, mapSpan, ModuleBody.mapSpan, Heading.mapSpan, Interface.mapSpan_ofMembers]

theorem InterfaceBody.add_mapSpan (b : InterfaceBody) (m : Member) :
    (b.mapSpan f).add (m.mapSpan f) = (b.add m).mapSpan f := by
  simp [add, mapSpan]

theorem MemberHeading.attribute_mapSpan (h : MemberHeading) (name : String) (span : Span) :
    (h.mapSpan f).attribute name (f span) = (h.attribute name span).mapSpan f := by
  obtain ⟨annotations, modifier, type⟩ := h
  cases modifier <;> rfl

end Views

/-! ### The step -/

namespace Draft

section Step
variable {f : Span → Span}

theorem accept_mapSpan (scope : Scope) (pending : List Annotation) (t : Token) :
    accept (scope.mapSpan f) (pending.map (·.mapSpan f)) (t.mapSpan f) =
      (accept scope pending t).map (mapSpan f) := by
  cases ha : t.isMark .atSign with
  | true => simp [accept, ha, mapSpan]
  | false =>
    cases scope with
    | program modules =>
      cases hw : t.isWord .module <;> simp [accept, ha, hw, Scope.mapSpan, mapSpan]
    | module body =>
      cases hw : t.isWord .interface with
      | true => simp [accept, ha, hw, Scope.mapSpan, mapSpan]
      | false =>
        cases hb : t.isMark .closeBrace && pending.isEmpty <;>
          simp [accept, ha, hw, hb, Scope.mapSpan, mapSpan, ModuleBody.close_mapSpan]
    | interface body =>
      cases hb : t.isMark .closeBrace && pending.isEmpty with
      | true => simp [accept, ha, hb, Scope.mapSpan, mapSpan, InterfaceBody.close_mapSpan]
      | false =>
        cases hv : t.visibility? with
        | some v => simp [accept, ha, hb, hv, Scope.mapSpan, mapSpan, Modifier.mapSpan]
        | none =>
          cases hn : t.name? <;>
            simp [accept, ha, hb, hv, hn, Scope.mapSpan, mapSpan, MemberHeading.mapSpan]

theorem refusalBetween_mapSpan (scope : Scope) (pending : List Annotation) (t : Token) :
    refusalBetween (scope.mapSpan f) (pending.map (·.mapSpan f)) (t.mapSpan f) =
      (refusalBetween scope pending t).mapSpan f := by
  cases hl : pending.getLast? with
  | none => cases scope <;> simp [refusalBetween, hl, Scope.mapSpan, ParseError.mapSpan]
  | some last =>
    have hd : declaration (scope.mapSpan f) = declaration scope := by cases scope <;> rfl
    cases he : t.isEnd || t.isMark .closeBrace <;>
      simp [refusalBetween, hl, he, hd, ParseError.mapSpan, Annotation.mapSpan]

theorem attributeNamed?_mapSpan (members : List Member) (name : String) :
    attributeNamed? (members.map (·.mapSpan f)) name =
      (attributeNamed? members name).map (·.mapSpan f) := by
  unfold attributeNamed?
  rw [filterMap_attribute?_mapSpan, List.find?_map]
  rfl

/-- Names clash wherever they stand. -/
theorem clash_mapSpan (d : Draft) (t : Token) :
    (d.mapSpan f).clash (t.mapSpan f) = (d.clash t).map (ParseError.mapSpan f) := by
  cases d with
  | memberName body heading name span =>
    cases hs : t.isMark .semicolon with
    | false => simp [clash, mapSpan, hs]
    | true =>
      simp [clash, mapSpan, hs, InterfaceBody.mapSpan, attributeNamed?_mapSpan, Function.comp_def,
        ParseError.mapSpan, Attribute.mapSpan]
  | ready scope pending =>
    cases pending with
    | cons a pending => cases scope <;> rfl
    | nil =>
      cases scope with
      | program modules => rfl
      | module body =>
        cases hb : t.isMark .closeBrace with
        | false => simp [clash, mapSpan, Scope.mapSpan, hb]
        | true =>
          simp [clash, mapSpan, Scope.mapSpan, hb, ModuleBody.mapSpan, Heading.mapSpan,
            Function.comp_def, ParseError.mapSpan, Module.mapSpan]
      | interface body =>
        cases hb : t.isMark .closeBrace with
        | false => simp [clash, mapSpan, Scope.mapSpan, hb]
        | true =>
          simp [clash, mapSpan, Scope.mapSpan, hb, InterfaceBody.mapSpan, ModuleBody.mapSpan,
            Heading.mapSpan, Function.comp_def, ParseError.mapSpan, Interface.mapSpan]
  | _ => rfl

variable (hf : ∀ a b, f (a.merge b) = (f a).merge (f b))
include hf

/-- The annotation behind its name, at another place. -/
theorem map_pending (pending : List Annotation) (name : String) (value : Option AnnotationValue)
    (sign span : Span) :
    pending.map (·.mapSpan f) ++ [⟨name, value, (f sign).merge (f span)⟩] =
      (pending ++ [⟨name, value, sign.merge span⟩] : List Annotation).map (·.mapSpan f) := by
  simp [hf, Annotation.mapSpan]

/-- **A token is let come next wherever it stands**, and leads to the same draft there. -/
theorem advance_mapSpan (d : Draft) (t : Token) :
    (d.mapSpan f).advance (t.mapSpan f) = (d.advance t).map (mapSpan f) := by
  cases d with
  | ready scope pending => exact accept_mapSpan scope pending t
  | annotationName scope pending sign name span =>
    cases hp : t.isMark .openParen with
    | true => simp [advance, mapSpan, hp]
    | false =>
      have ha := accept_mapSpan (f := f) scope (pending ++ [⟨name, none, sign.merge span⟩]) t
      rw [← map_pending hf] at ha
      simpa [advance, mapSpan, hp] using ha
  | annotationValue scope pending sign name value =>
    cases hp : t.isMark .closeParen <;> simp [advance, mapSpan, hp, hf, Annotation.mapSpan]
  | annotationOpen scope pending sign name =>
    cases hl : t.literal? <;> simp [advance, mapSpan, hl]
  | memberName body heading name span =>
    cases hs : t.isMark .semicolon with
    | true =>
      have ha := InterfaceBody.add_mapSpan f body (.attribute (heading.attribute name span))
      rw [Member.mapSpan, ← MemberHeading.attribute_mapSpan] at ha
      simp [advance, mapSpan, hs, ha, Scope.mapSpan]
    | false =>
      cases hp : t.isMark .openParen && heading.modifier.isNone <;>
        simp [advance, mapSpan, hs, hp, Method.mapSpan, MemberHeading.mapSpan]
  | parametersOpen body method =>
    cases hp : t.isMark .closeParen with
    | true => simp [advance, mapSpan, hp]
    | false => cases hn : t.name? <;> simp [advance, acceptParameter, mapSpan, hp, hn]
  | parameterType body method type =>
    cases hn : t.name? <;> simp [advance, mapSpan, hn, Method.mapSpan, Parameter.mapSpan]
  | parameterName body method =>
    cases hc : t.isMark .comma with
    | true => simp [advance, mapSpan, hc]
    | false => cases hp : t.isMark .closeParen <;> simp [advance, mapSpan, hc, hp]
  | parametersClose body method =>
    have ha := InterfaceBody.add_mapSpan f body (.method method)
    rw [Member.mapSpan] at ha
    cases hs : t.isMark .semicolon <;> simp [advance, mapSpan, hs, ha, Scope.mapSpan]
  | moduleName modules heading =>
    cases hb : t.isMark .openBrace <;>
      simp [advance, mapSpan, hb, Scope.mapSpan, ModuleBody.mapSpan]
  | interfaceName body heading =>
    cases hb : t.isMark .openBrace <;>
      simp [advance, mapSpan, hb, Scope.mapSpan, InterfaceBody.mapSpan]
  | moduleKeyword | interfaceKeyword =>
    cases hn : t.name? <;> simp [advance, mapSpan, hn, Heading.mapSpan]
  | annotationSign | memberModifier | memberType | parameterComma =>
    cases hn : t.name? <;> simp [advance, acceptParameter, mapSpan, hn, MemberHeading.mapSpan]

/-- A token is refused for the same reason wherever it stands. -/
theorem refusal_mapSpan (d : Draft) (t : Token) :
    (d.mapSpan f).refusal (t.mapSpan f) = (d.refusal t).mapSpan f := by
  cases d with
  | ready scope pending => exact refusalBetween_mapSpan scope pending t
  | annotationName scope pending sign name span =>
    have hr := refusalBetween_mapSpan (f := f) scope (pending ++ [⟨name, none, sign.merge span⟩]) t
    rwa [← map_pending hf] at hr
  | memberName body heading name span =>
    obtain ⟨annotations, modifier, type⟩ := heading
    cases modifier with
    | none => rfl
    | some modifier =>
      cases hp : t.isMark .openParen <;>
        simp [refusal, mapSpan, MemberHeading.mapSpan, Modifier.mapSpan, hp, ParseError.mapSpan]
  | _ => rfl

theorem step_mapSpan (d : Draft) (t : Token) :
    (d.mapSpan f).step (t.mapSpan f) =
      ((d.step t).map (mapSpan f)).mapError (ParseError.mapSpan f) := by
  unfold step
  rw [clash_mapSpan, advance_mapSpan hf, refusal_mapSpan hf]
  cases d.clash t with
  | some error => rfl
  | none => cases d.advance t <;> rfl

theorem finish_mapSpan (d : Draft) (t : Token) :
    (d.mapSpan f).finish (t.mapSpan f) =
      ((d.finish t).map (List.map (·.mapSpan f))).mapError (ParseError.mapSpan f) := by
  have hr := refusal_mapSpan hf d t
  cases d with
  | ready scope pending =>
    cases pending with
    | nil =>
      cases scope with
      | program modules => rfl
      | _ => exact congrArg Except.error hr
    | cons a pending => cases scope <;> exact congrArg Except.error hr
  | _ => exact congrArg Except.error hr

/-! ### The run -/

/-- **Tokens with an end among them are read alike wherever they stand.** -/
theorem read_mapSpan (d : Draft) {ts : List Token} (he : ∃ t ∈ ts, t.isEnd = true) :
    (d.mapSpan f).read (ts.map (Token.mapSpan f)) =
      ((d.read ts).map (List.map (·.mapSpan f))).mapError (ParseError.mapSpan f) := by
  induction ts generalizing d with
  | nil => simp at he
  | cons t later ih =>
    rw [List.map_cons]
    cases ht : t.isEnd with
    | true => rw [read_end _ ht, read_end _ (by simpa using ht), finish_mapSpan hf]
    | false =>
      have hlater : ∃ u ∈ later, u.isEnd = true := by
        obtain ⟨u, hu, hue⟩ := he
        rcases List.mem_cons.mp hu with rfl | hu
        · rw [ht] at hue; cases hue
        · exact ⟨u, hu, hue⟩
      have hs := step_mapSpan hf d t
      simp only [read, Token.isEnd_mapSpan, ht, Bool.false_eq_true, if_false, hs]
      cases d.step t with
      | error error => rfl
      | ok next => exact ih next hlater

end Step

end Draft

/-! ### Names -/

section Names
variable (f : Span → Span)

theorem distinctBy_map {α : Type} (name : α → String) {inner : α → Prop} {g : α → α}
    (hn : ∀ a, name (g a) = name a) (hi : ∀ a, inner (g a) ↔ inner a) (as : List α) :
    DistinctBy name inner (as.map g) ↔ DistinctBy name inner as := by
  simp [DistinctBy, Function.comp_def, hn, hi]

theorem Interface.distinct_mapSpan (i : Interface) : (i.mapSpan f).Distinct ↔ i.Distinct := by
  simp [Distinct, mapSpan, Function.comp_def, Attribute.mapSpan]

theorem Module.distinct_mapSpan (m : Module) : (m.mapSpan f).Distinct ↔ m.Distinct :=
  distinctBy_map Interface.name (g := Interface.mapSpan f) (fun _ => rfl)
    (Interface.distinct_mapSpan f) m.interfaces

/-- Names are apart wherever they stand. -/
theorem distinctNames_mapSpan {program : List Module} :
    DistinctNames (program.map (·.mapSpan f)) ↔ DistinctNames program :=
  distinctBy_map Module.name (g := Module.mapSpan f) (fun _ => rfl)
    (Module.distinct_mapSpan f) program

end Names

/-! ### Programs apart from where they stand -/

/-- **A program apart from where it stands.** -/
def eraseSpans (program : List Module) : List Module :=
  program.map (·.mapSpan fun _ => .nowhere)

/-- Where an end of the input is among the kinds, an end token is among the tokens. -/
theorem Token.exists_end {ts : List Token} {kinds : List TokenKind}
    (h : ts.map Token.kind = kinds ++ [.endOfInput]) : ∃ t ∈ ts, t.isEnd = true := by
  have hmem : TokenKind.endOfInput ∈ ts.map Token.kind := by simp [h]
  obtain ⟨t, ht, hk⟩ := List.mem_map.mp hmem
  exact ⟨t, ht, Token.isEnd_iff.mpr hk⟩

/-- **Parsing looks at the kinds of the tokens only**: apart from all spans, the tokens are parsed
into what they are parsed into with them. -/
theorem parse_eraseSpans {ts : List Token} (he : ∃ t ∈ ts, t.isEnd = true) :
    parse (ts.map fun t => t.kind.token) =
      ((parse ts).map eraseSpans).mapError (ParseError.mapSpan fun _ => .nowhere) :=
  Draft.read_mapSpan (f := fun _ => .nowhere) (fun _ _ => rfl) .empty he

end Idl
