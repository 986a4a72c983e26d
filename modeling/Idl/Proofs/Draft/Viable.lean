import Idl.Proofs.Draft.Names

/-! # The first token that cannot come next

A list of tokens begins some program exactly if a run over it succeeds (`viable_iff_run`): a run
over a program succeeds, and every draft can be completed (`exists_completion`). So reading stops at
the first token behind which no program can follow, where the end of the input counts as a token.

Which error is reported there depends on what the tokens before it end in.

* `refusal_eq_trailing_iff`: a complete program.
* `refusal_eq_dangling_iff`: a complete annotation, if a block or the input ends there.
* `refusal_eq_visibility_iff`: a modifier, a type and a name, if a parenthesis opens there.
* `refused_at_first_nonviable`: the place and the error, for every list of tokens that is refused
  for its grammar. -/

namespace Idl

open Grammar

namespace Token

/-- The first end token of a list; the implicit one if there is none. -/
def endOf (ts : List Token) : Token := (ts.find? isEnd).getD implicitEnd

/-- The tokens of a list up to its first end token, which is added if there is none. -/
def closed (ts : List Token) : List Token := beforeEnd ts ++ [endOf ts]

theorem closed_end {t : Token} (h : t.isEnd = true) (ts : List Token) : closed (t :: ts) = [t] := by
  simp only [closed, Draft.beforeEnd_end h, endOf, List.find?_cons, h, Option.getD_some,
    List.nil_append]

theorem closed_cons {t : Token} (h : t.isEnd = false) (ts : List Token) :
    closed (t :: ts) = t :: closed ts := by
  simp only [closed, Draft.beforeEnd_cons h, endOf, List.find?_cons, h, List.cons_append]

end Token

namespace Draft

/-! ### Every draft can be completed -/

/-- Some tokens make a program of the draft. -/
def Completable (d : Draft) : Prop := ∃ ts ms, d.run ts = some (.ready (.program ms) [])

theorem completable_of_advance {d d' : Draft} (t : Token) (h : d.advance t = some d')
    (hd : d'.Completable) : d.Completable := by
  obtain ⟨ts, ms, hr⟩ := hd
  exact ⟨t :: ts, ms, by rw [run_cons, h]; exact hr⟩

/-- A mark, for completions. -/
def mark (p : Punctuation) : Token := TokenKind.token (.punctuation p)

/-- An identifier, for completions. -/
def someName : Token := TokenKind.token (.identifier "x")

theorem completable_program (modules : List Module) :
    (ready (.program modules) []).Completable := ⟨[], modules, rfl⟩

theorem completable_module (body : ModuleBody) : (ready (.module body) []).Completable :=
  completable_of_advance (mark .closeBrace) rfl (completable_program _)

theorem completable_interface (body : InterfaceBody) : (ready (.interface body) []).Completable :=
  completable_of_advance (mark .closeBrace) rfl (completable_module _)

theorem completable_memberName (body : InterfaceBody) (heading : MemberHeading) (name : String)
    (span : Span) : (memberName body heading name span).Completable :=
  completable_of_advance (mark .semicolon) rfl (completable_interface _)

theorem completable_memberType (body : InterfaceBody) (heading : MemberHeading) :
    (memberType body heading).Completable :=
  completable_of_advance someName rfl (completable_memberName ..)

theorem completable_interfaceName (body : ModuleBody) (heading : Heading) :
    (interfaceName body heading).Completable :=
  completable_of_advance (mark .openBrace) rfl (completable_interface _)

theorem completable_interfaceKeyword (body : ModuleBody) (annotations : List Annotation) :
    (interfaceKeyword body annotations).Completable :=
  completable_of_advance someName rfl (completable_interfaceName ..)

theorem completable_moduleName (modules : List Module) (heading : Heading) :
    (moduleName modules heading).Completable :=
  completable_of_advance (mark .openBrace) rfl (completable_module _)

theorem completable_moduleKeyword (modules : List Module) (annotations : List Annotation) :
    (moduleKeyword modules annotations).Completable :=
  completable_of_advance someName rfl (completable_moduleName ..)

/-- Behind annotations a declaration can start in every scope. -/
theorem completable_of_awaits {scope : Scope} {pending : List Annotation} {d : Draft}
    (h : Awaits scope pending d) : d.Completable := by
  cases scope with
  | program modules =>
    refine completable_of_advance (TokenKind.token (.keyword .module)) ?_
      (completable_moduleKeyword modules pending)
    rw [advance_of_awaits h (by decide)]
    rfl
  | module body =>
    refine completable_of_advance (TokenKind.token (.keyword .interface)) ?_
      (completable_interfaceKeyword body pending)
    rw [advance_of_awaits h (by decide)]
    rfl
  | interface body =>
    refine completable_of_advance someName ?_ (completable_memberType body ⟨pending, none, "x"⟩)
    rw [advance_of_awaits h (by decide)]
    rfl

theorem completable_annotationValue (scope : Scope) (pending : List Annotation) (sign : Span)
    (name : String) (value : AnnotationValue) :
    (annotationValue scope pending sign name value).Completable :=
  completable_of_advance (mark .closeParen) rfl (completable_of_awaits (.ready _))

theorem completable_parametersClose (body : InterfaceBody) (method : Method) :
    (parametersClose body method).Completable :=
  completable_of_advance (mark .semicolon) rfl (completable_interface _)

theorem completable_parameterName (body : InterfaceBody) (method : Method) :
    (parameterName body method).Completable :=
  completable_of_advance (mark .closeParen) rfl (completable_parametersClose ..)

theorem completable_parameterType (body : InterfaceBody) (method : Method) (type : String) :
    (parameterType body method type).Completable :=
  completable_of_advance someName rfl (completable_parameterName ..)

/-- **Every draft can be completed to a program.** -/
theorem exists_completion (d : Draft) : d.Completable := by
  cases d with
  | ready => exact completable_of_awaits (.ready _)
  | annotationSign => exact completable_of_advance someName rfl (completable_of_awaits (.bare ..))
  | annotationName => exact completable_of_awaits (.bare ..)
  | annotationOpen =>
    exact completable_of_advance someName rfl (completable_annotationValue ..)
  | annotationValue => exact completable_annotationValue ..
  | moduleKeyword => exact completable_moduleKeyword ..
  | moduleName => exact completable_moduleName ..
  | interfaceKeyword => exact completable_interfaceKeyword ..
  | interfaceName => exact completable_interfaceName ..
  | memberModifier => exact completable_of_advance someName rfl (completable_memberType ..)
  | memberType => exact completable_memberType ..
  | memberName => exact completable_memberName ..
  | parametersOpen =>
    exact completable_of_advance (mark .closeParen) rfl (completable_parametersClose ..)
  | parameterComma => exact completable_of_advance someName rfl (completable_parameterType ..)
  | parameterType => exact completable_parameterType ..
  | parameterName => exact completable_parameterName ..
  | parametersClose => exact completable_parametersClose ..

/-- **A list of tokens begins a program exactly if a run over it succeeds.** -/
theorem viable_iff_run {ts : List Token} : Viable ts ↔ ∃ d, empty.run ts = some d := by
  constructor
  · rintro ⟨later, ms, hp⟩
    obtain ⟨d, hd, -⟩ := exists_run_of_append (run_eq_some_iff.mpr hp)
    exact ⟨d, hd⟩
  · rintro ⟨d, hd⟩
    obtain ⟨later, ms, hr⟩ := exists_completion d
    exact ⟨later, ms, run_eq_some_iff.mp (run_trans hd hr)⟩

/-! ### Where reading stops -/

theorem finish_eq_error {d : Draft} {t : Token} {e : ParseError} (h : d.finish t = .error e) :
    e = d.refusal t := by
  unfold finish at h
  split at h
  · cases h
  · cases h; rfl

/-- Reading fails behind some tokens at the next one, end tokens included: its name clashes, or it
cannot come next. -/
theorem exists_of_read_error {d : Draft} {ts : List Token} {e : ParseError}
    (h : d.read ts = .error e) : ∃ us t vs d', Token.closed ts = us ++ t :: vs ∧
      d.run us = some d' ∧ (d'.clash t = some e ∨ d'.advance t = none ∧ e = d'.refusal t) := by
  induction ts generalizing d with
  | nil => exact ⟨[], .implicitEnd, [], d, rfl, rfl, .inr ⟨advance_end d rfl, finish_eq_error h⟩⟩
  | cons t ts ih =>
    cases he : t.isEnd with
    | true =>
      rw [read_end d he] at h
      exact ⟨[], t, [], d, Token.closed_end he ts, rfl,
        .inr ⟨advance_end d he, finish_eq_error h⟩⟩
    | false =>
      rw [Token.closed_cons he]
      cases ha : d.advance t with
      | none =>
        rw [read_of_error he (step_of_refused ha)] at h
        cases h
        exact ⟨[], t, _, d, rfl, rfl, .inr ⟨ha, rfl⟩⟩
      | some d₁ =>
        cases hc : d.clash t with
        | some e' =>
          rw [read_of_error he (step_of_clash hc)] at h
          cases h
          exact ⟨[], t, _, d, rfl, rfl, .inl hc⟩
        | none =>
          rw [read_cons (step_eq_ok_iff.mpr ⟨hc, ha⟩)] at h
          obtain ⟨us, t', vs, d', hts, hr, hcase⟩ := ih h
          refine ⟨t :: us, t', vs, d', by rw [hts]; rfl, ?_, hcase⟩
          rw [run_cons, ha]
          exact hr

theorem exists_of_clash {d : Draft} {t : Token} {e : ParseError} (h : d.clash t = some e) :
    ∃ what name span first, e = .duplicateName what name span first := by
  rcases clash_cases h with ⟨body, heading, name, span, first, -, -, -, he⟩ |
    ⟨body, first, -, -, -, he⟩ | ⟨body, first, -, -, -, he⟩
  · exact ⟨_, _, _, _, he⟩
  · exact ⟨_, _, _, _, he⟩
  · exact ⟨_, _, _, _, he⟩

/-! ### What the tokens before end in -/

/-- The tokens end in an annotation. -/
def EndsInAnnotation (ts : List Token) (a : Annotation) : Prop :=
  ∃ us vs, ts = us ++ vs ∧ AnnotationDecl vs a

/-- The tokens end in a modifier and two identifiers. -/
def EndsInModified (ts : List Token) (modifier : Token) : Prop :=
  ∃ us type word v typeName name, ts = us ++ [modifier, type, word] ∧ Modifies modifier.kind v ∧
    type.kind = .identifier typeName ∧ word.kind = .identifier name

/-- A draft behind annotations has read the last of them. -/
theorem endsInAnnotation_of_awaits {scope : Scope} {pending : List Annotation} {a : Annotation}
    {d : Draft} {ts : List Token} (hr : Reads d ts) (h : Awaits scope (pending ++ [a]) d) :
    EndsInAnnotation ts a := by
  generalize hp : pending ++ [a] = all at h
  cases h with
  | ready =>
    subst hp
    obtain ⟨hs, ha⟩ := hr
    obtain ⟨us, vs, rfl, hv⟩ := ha.exists_last
    exact ⟨_ ++ us, vs, (List.append_assoc ..).symm, hv⟩
  | bare =>
    obtain ⟨-, ha⟩ := List.append_inj' hp rfl
    obtain rfl := List.singleton_inj.mp ha
    cases hr with
    | annotationName hs ha h1 h2 => exact ⟨_, _, rfl, .bare h1 h2⟩

/-- An at sign is accepted only where a declaration can start. -/
theorem awaits_of_sign {d d' : Draft} {t : Token} (ht : t.kind = .punctuation .atSign)
    (h : d.advance t = some d') : ∃ scope pending, Awaits scope pending d := by
  cases d with
  | ready scope pending => exact ⟨scope, pending, .ready _⟩
  | annotationName scope pending sign name span => exact ⟨scope, _, .bare ..⟩
  | _ => simp [advance, acceptParameter, Token.isMark, Token.name?, Token.literal?, ht] at h

/-- A draft that has read an annotation last stands behind it. -/
theorem awaits_of_endsInAnnotation {d : Draft} {ts : List Token} {a : Annotation}
    (hr : empty.run ts = some d) (h : EndsInAnnotation ts a) :
    ∃ scope pending, Awaits scope (pending ++ [a]) d := by
  obtain ⟨us, vs, rfl, ha⟩ := h
  obtain ⟨d₁, -, h₂⟩ := exists_run_of_append hr
  have hsign : ∃ sign later, vs = sign :: later ∧ sign.kind = .punctuation .atSign := by
    cases ha with
    | bare hs => exact ⟨_, _, rfl, hs⟩
    | valued hs => exact ⟨_, _, rfl, hs⟩
  obtain ⟨sign, later, rfl, hs⟩ := hsign
  have h₃ := h₂
  rw [run_cons] at h₃
  obtain ⟨d₂, hadv, -⟩ := Option.bind_eq_some_iff.mp h₃
  obtain ⟨scope, pending, hd₁⟩ := awaits_of_sign hs hadv
  obtain ⟨d₃, hd₃, hw⟩ := run_of_annotation hd₁ ha
  rw [h₂] at hd₃
  cases hd₃
  exact ⟨scope, pending, hw⟩

/-- A draft behind the name of a member with a modifier has read the modifier, the type and the
name last. -/
theorem endsInModified_of_reads {body : InterfaceBody} {heading : MemberHeading} {name : String}
    {span : Span} {ts : List Token} {m : Modifier} (hm : heading.modifier = some m)
    (hr : Reads (.memberName body heading name span) ts) :
    ∃ modifier : Token, modifier.span = m.span ∧ EndsInModified ts modifier := by
  cases hr with
  | @memberName ts _ word _ _ _ hs hst h1 =>
    cases hst with
    | plain => cases hm
    | @modified us modifier type _ v typeName ha hv ht =>
      cases hm
      exact ⟨modifier, rfl, ts ++ us, type, word, v, typeName, name, by simp, hv, ht, h1⟩

/-- A modifier is accepted only in front of a member. -/
theorem eq_memberModifier_of_advance {d d' : Draft} {t : Token} {v : Visibility}
    (ht : Modifies t.kind v) (h : d.advance t = some d') :
    ∃ body annotations, d' = .memberModifier body annotations ⟨v, t.span⟩ := by
  have hword : ∃ word, t.kind = .keyword word ∧ word ≠ .module ∧ word ≠ .interface := by
    generalize t.kind = k at ht
    cases ht <;> exact ⟨_, rfl, by decide, by decide⟩
  obtain ⟨word, hk, hm, hi⟩ := hword
  have haccept : ∀ scope pending, accept scope pending t = some d' →
      ∃ body annotations, d' = .memberModifier body annotations ⟨v, t.span⟩ := by
    intro scope pending ha
    cases accepts_of_accept ha with
    | @modifier body _ _ v' hv =>
      obtain rfl : v = v' := by
        have he := Token.visibility?_eq_some_iff.mpr hv
        rw [Token.visibility?_eq_some_iff.mpr ht] at he
        exact Option.some.inj he
      exact ⟨body, pending, rfl⟩
    | moduleWord hw => simp [hk, hm] at hw
    | interfaceWord hw => simp [hk, hi] at hw
    | sign hp | closeModule hp | closeInterface hp | type hp => simp [hk] at hp
  cases d with
  | ready scope pending => exact haccept _ _ h
  | annotationName scope pending sign name span =>
    simp only [advance, Token.isMark, hk, reduceCtorEq, decide_false, Bool.false_eq_true,
      if_false] at h
    exact haccept _ _ h
  | _ => simp [advance, acceptParameter, Token.isMark, Token.name?, Token.literal?, hk] at h

/-- A draft that has read a modifier and two identifiers last stands behind the name of a member. -/
theorem eq_memberName_of_endsInModified {d : Draft} {ts : List Token} {modifier : Token}
    (hr : empty.run ts = some d) (h : EndsInModified ts modifier) :
    ∃ body annotations v type name span,
      d = .memberName body ⟨annotations, some ⟨v, modifier.span⟩, type⟩ name span := by
  obtain ⟨us, type, word, v, typeName, name, rfl, hv, ht, hn⟩ := h
  obtain ⟨d₁, -, h₂⟩ := exists_run_of_append hr
  rw [run_cons] at h₂
  obtain ⟨d₂, hadv, h₃⟩ := Option.bind_eq_some_iff.mp h₂
  obtain ⟨body, annotations, rfl⟩ := eq_memberModifier_of_advance hv hadv
  refine ⟨body, annotations, v, typeName, name, word.span, ?_⟩
  simpa [advance, Token.name?, ht, hn] using h₃.symm

/-! ### Which error is reported -/

theorem refusalBetween_snoc (scope : Scope) (pending : List Annotation) (a : Annotation)
    (t : Token) : refusalBetween scope (pending ++ [a]) t =
      if t.isEnd || t.isMark .closeBrace then .dangling t a.span
      else .unexpectedToken (declaration scope) t := by
  simp only [refusalBetween, List.getLast?_concat]

/-- The four ways to refuse a token, and where each is used. -/
theorem refusal_cases (d : Draft) (t : Token) :
    (∃ scope pending a, Awaits scope (pending ++ [a]) d ∧
      (t.isEnd || t.isMark .closeBrace) = true ∧ d.refusal t = .dangling t a.span) ∨
    (∃ ms, d = .ready (.program ms) [] ∧ d.refusal t = .trailingInput t) ∨
    (∃ body heading m name span, d = .memberName body heading name span ∧
      heading.modifier = some m ∧ t.isMark .openParen = true ∧
      d.refusal t = .visibilityOnMethod name m.span) ∨
    ∃ expected, d.refusal t = .unexpectedToken expected t := by
  have hawaits : ∀ scope pending a, Awaits scope (pending ++ [a]) d →
      (∃ scope pending a, Awaits scope (pending ++ [a]) d ∧
        (t.isEnd || t.isMark .closeBrace) = true ∧ d.refusal t = .dangling t a.span) ∨
      ∃ expected, d.refusal t = .unexpectedToken expected t := by
    intro scope pending a hd
    rw [refusal_of_awaits hd, refusalBetween_snoc]
    split
    · next hc => exact .inl ⟨scope, pending, a, hd, hc, rfl⟩
    · exact .inr ⟨_, rfl⟩
  cases d with
  | ready scope pending =>
    rcases List.eq_nil_or_concat pending with rfl | ⟨before, a, rfl⟩
    · cases scope with
      | program ms => exact .inr (.inl ⟨ms, rfl, rfl⟩)
      | _ => exact .inr (.inr (.inr ⟨_, rfl⟩))
    · rw [List.concat_eq_append] at hawaits ⊢
      rcases hawaits scope before a (.ready _) with h | h
      · exact .inl h
      · exact .inr (.inr (.inr h))
  | annotationName scope pending sign name span =>
    rcases hawaits scope pending _ (.bare ..) with h | h
    · exact .inl h
    · exact .inr (.inr (.inr h))
  | memberName body heading name span =>
    simp only [refusal]
    split
    · next m hm =>
      split
      · next ho => exact .inr (.inr (.inl ⟨body, heading, m, name, span, rfl, hm, ho, rfl⟩))
      · exact .inr (.inr (.inr ⟨_, rfl⟩))
    · exact .inr (.inr (.inr ⟨_, rfl⟩))
  | _ => exact .inr (.inr (.inr ⟨_, rfl⟩))

section Refusal
variable {d : Draft} {ts : List Token} (hr : empty.run ts = some d) (t : Token)
include hr

/-- **Trailing input** follows a complete program. -/
theorem refusal_eq_trailing_iff : (∃ u, d.refusal t = .trailingInput u) ↔ Sentence ts := by
  constructor
  · rintro ⟨u, hu⟩
    rcases refusal_cases d t with ⟨_, _, _, _, _, h⟩ | ⟨ms, rfl, _⟩ | ⟨_, _, _, _, _, _, _, _, h⟩ |
      ⟨_, h⟩
    · rw [h] at hu; cases hu
    · exact ⟨ms, run_eq_some_iff.mp hr⟩
    · rw [h] at hu; cases hu
    · rw [h] at hu; cases hu
  · rintro ⟨ms, hp⟩
    have hd := run_eq_some_iff.mpr hp
    rw [hr] at hd
    cases hd
    exact ⟨t, rfl⟩

/-- Behind an annotation the end of a block or of the input leaves it dangling. -/
theorem refusal_of_endsInAnnotation {a : Annotation} (ha : EndsInAnnotation ts a)
    (ht : (t.isEnd || t.isMark .closeBrace) = true) : d.refusal t = .dangling t a.span := by
  obtain ⟨scope, pending, hw⟩ := awaits_of_endsInAnnotation hr ha
  rw [refusal_of_awaits hw, refusalBetween_snoc, if_pos ht]

/-- **A dangling annotation** stands at the end of a block or of the input. -/
theorem refusal_eq_dangling_iff : (∃ u tag, d.refusal t = .dangling u tag) ↔
    (t.isEnd || t.isMark .closeBrace) = true ∧ ∃ a, EndsInAnnotation ts a := by
  constructor
  · rintro ⟨u, tag, hu⟩
    rcases refusal_cases d t with ⟨_, _, a, hw, hc, _⟩ | ⟨_, _, h⟩ | ⟨_, _, _, _, _, _, _, _, h⟩ |
      ⟨_, h⟩
    · exact ⟨hc, a, endsInAnnotation_of_awaits (reads_of_run hr) hw⟩
    · rw [h] at hu; cases hu
    · rw [h] at hu; cases hu
    · rw [h] at hu; cases hu
  · rintro ⟨hc, a, ha⟩
    exact ⟨t, a.span, refusal_of_endsInAnnotation hr t ha hc⟩

/-- Behind a modifier and two identifiers an opening parenthesis makes a method with a modifier. -/
theorem refusal_of_endsInModified {modifier : Token} (hm : EndsInModified ts modifier)
    (ht : t.isMark .openParen = true) :
    ∃ name, d.refusal t = .visibilityOnMethod name modifier.span := by
  obtain ⟨body, annotations, v, type, name, span, rfl⟩ := eq_memberName_of_endsInModified hr hm
  exact ⟨name, by simp only [refusal, ht, if_true]⟩

/-- **A modifier on a method** stands in front of a type, a name and a parenthesis. -/
theorem refusal_eq_visibility_iff : (∃ name span, d.refusal t = .visibilityOnMethod name span) ↔
    t.isMark .openParen = true ∧ ∃ modifier, EndsInModified ts modifier := by
  constructor
  · rintro ⟨name, span, hu⟩
    rcases refusal_cases d t with ⟨_, _, _, _, _, h⟩ | ⟨_, _, h⟩ |
      ⟨body, heading, m, name, span, rfl, hm, ho, _⟩ | ⟨_, h⟩
    · rw [h] at hu; cases hu
    · rw [h] at hu; cases hu
    · obtain ⟨modifier, -, he⟩ := endsInModified_of_reads hm (reads_of_run hr)
      exact ⟨ho, modifier, he⟩
    · rw [h] at hu; cases hu
  · rintro ⟨ho, modifier, hm⟩
    obtain ⟨name, h⟩ := refusal_of_endsInModified hr t hm ho
    exact ⟨name, modifier.span, h⟩

end Refusal

end Draft

/-- The error for a token behind others, by what these end in. -/
structure Refused (before : List Token) (t : Token) (e : ParseError) : Prop where
  trailing : (∃ u, e = .trailingInput u) ↔ Sentence before
  dangling : (∃ u tag, e = .dangling u tag) ↔
    (t.isEnd || t.isMark .closeBrace) = true ∧ ∃ a, Draft.EndsInAnnotation before a
  previous : ∀ u tag a, e = .dangling u tag → Draft.EndsInAnnotation before a →
    e.previous = some a.span
  visibility : (∃ name span, e = .visibilityOnMethod name span) ↔
    t.isMark .openParen = true ∧ ∃ modifier, Draft.EndsInModified before modifier
  modifier : ∀ name span modifier, e = .visibilityOnMethod name span →
    Draft.EndsInModified before modifier → e.span = modifier.span
  unexpected : (∃ expected u, e = .unexpectedToken expected u) ↔ ¬ Sentence before ∧
    ¬ ((t.isEnd || t.isMark .closeBrace) = true ∧ ∃ a, Draft.EndsInAnnotation before a) ∧
    ¬ (t.isMark .openParen = true ∧ ∃ modifier, Draft.EndsInModified before modifier)
  place : (∀ name span, e ≠ .visibilityOnMethod name span) →
    e.span = t.span ∧ e.found = t.kind.text

namespace Draft

/-- **The error for a token tells what the tokens before it end in.** -/
theorem refused_refusal {d : Draft} {ts : List Token} (hr : empty.run ts = some d) (t : Token) :
    Refused ts t (d.refusal t) where
  trailing := refusal_eq_trailing_iff hr t
  dangling := refusal_eq_dangling_iff hr t
  previous := by
    intro u tag a he ha
    have hc := ((refusal_eq_dangling_iff hr t).mp ⟨u, tag, he⟩).1
    have hd := refusal_of_endsInAnnotation hr t ha hc
    rw [hd]
    rfl
  visibility := refusal_eq_visibility_iff hr t
  modifier := by
    intro name span modifier he hm
    have ho := ((refusal_eq_visibility_iff hr t).mp ⟨name, span, he⟩).1
    obtain ⟨name, h⟩ := refusal_of_endsInModified hr t hm ho
    rw [h]
    rfl
  unexpected := by
    rw [← refusal_eq_trailing_iff hr t, ← refusal_eq_dangling_iff hr t,
      ← refusal_eq_visibility_iff hr t]
    rcases refusal_cases d t with ⟨_, _, _, _, _, h⟩ | ⟨_, _, h⟩ | ⟨_, _, _, _, _, _, _, _, h⟩ |
      ⟨_, h⟩ <;> simp [h]
  place := by
    intro hv
    rcases refusal_cases d t with ⟨_, _, _, _, _, h⟩ | ⟨_, _, h⟩ | ⟨_, _, _, _, _, _, _, _, h⟩ |
      ⟨_, h⟩
    · rw [h]; exact ⟨rfl, rfl⟩
    · rw [h]; exact ⟨rfl, rfl⟩
    · exact absurd h (hv _ _)
    · rw [h]; exact ⟨rfl, rfl⟩

end Draft

/-- **A list of tokens is refused at the first token behind which no program can follow**, the end
of the input counted as a token, unless a repeated name is found before. The error tells what the
tokens before end in. -/
theorem refused_at_first_nonviable {ts : List Token} {e : ParseError} (h : parse ts = .error e)
    (hn : ∀ what name span first, e ≠ .duplicateName what name span first) :
    ∃ k t, (Token.closed ts)[k]? = some t ∧ ¬ Viable ((Token.closed ts).take (k + 1)) ∧
      (∀ j < k, Viable ((Token.closed ts).take (j + 1))) ∧
      Refused ((Token.closed ts).take k) t e := by
  obtain ⟨us, t, vs, d, hts, hr, hcase⟩ := Draft.exists_of_read_error h
  obtain ⟨ha, rfl⟩ : d.advance t = none ∧ e = d.refusal t := by
    rcases hcase with hc | hc
    · obtain ⟨what, name, span, first, he⟩ := Draft.exists_of_clash hc
      exact absurd he (hn what name span first)
    · exact hc
  have hv : Viable us := Draft.viable_iff_run.mpr ⟨d, hr⟩
  refine ⟨us.length, t, ?_, ?_, fun j hj => ?_, ?_⟩
  · rw [hts]; simp
  · rw [hts, List.take_length_add_append, Draft.viable_iff_run]
    rintro ⟨d', hd'⟩
    rw [List.take_succ_cons, List.take_zero, Draft.run_append, hr] at hd'
    simp [ha] at hd'
  · rw [hts, List.take_append_of_le_length (by omega)]
    rw [← List.take_append_drop (j + 1) us] at hv
    exact hv.of_append
  · rw [hts, List.take_left]
    exact Draft.refused_refusal hr t

/-- The annotation of `module M { @a }` dangles before the closing brace. -/
theorem refused_at_brace_behind_annotation :
    let brace : Token := ⟨.punctuation .closeBrace, ⟨14, 15, 1, 15⟩⟩
    let ts : List Token := [⟨.keyword .module, ⟨0, 6, 1, 1⟩⟩, ⟨.identifier "M", ⟨7, 8, 1, 8⟩⟩,
      ⟨.punctuation .openBrace, ⟨9, 10, 1, 10⟩⟩, ⟨.punctuation .atSign, ⟨11, 12, 1, 12⟩⟩,
      ⟨.identifier "a", ⟨12, 13, 1, 13⟩⟩, brace]
    let e : ParseError := .dangling brace ⟨11, 13, 1, 12⟩
    parse ts = .error e ∧ ∃ k t, (Token.closed ts)[k]? = some t ∧
      ¬ Viable ((Token.closed ts).take (k + 1)) ∧
      (∀ j < k, Viable ((Token.closed ts).take (j + 1))) ∧
      Refused ((Token.closed ts).take k) t e := by
  intro brace ts e
  have h : parse ts = .error e := rfl
  exact ⟨h, refused_at_first_nonviable h (by simp [e])⟩

end Idl
