import Idl.Proofs.Draft.Grammar

/-! # Runs over derived tokens

A run carries a draft over a list of tokens by the grammar alone, whatever the names. It follows
every derivation: over the tokens of a declaration it leads from the place where the declaration can
start to the place behind it, with the declaration added.

Behind annotations a draft is in one of two shapes, because the last one may still go on with a
literal. `Awaits` covers both: the next token is accepted in the same way (`advance_of_awaits`).

* `run_append`: a run can be cut anywhere.
* `accepts_of_accept`: what can come next where a declaration can start.
* `run_of_program`: a run over a program ends with its modules. -/

namespace Idl

open Grammar

namespace Token

theorem literal?_eq_some_iff {t : Token} {value : AnnotationValue} :
    t.literal? = some value ↔ Literal t.kind value := by
  unfold literal?
  constructor
  · intro h
    split at h <;> cases h
    · next hk => rw [hk]; exact .string _
    · next hk => rw [hk]; exact .number _
    · next hk => rw [hk]; exact .word _
  · intro h
    generalize t.kind = k at h
    cases h <;> rfl

theorem visibility?_eq_some_iff {t : Token} {v : Visibility} :
    t.visibility? = some v ↔ Modifies t.kind v := by
  unfold visibility?
  constructor
  · intro h
    split at h
    · next word hk =>
      rw [hk]
      cases word <;> cases h
      · exact .readonly
      · exact .writeonly
      · exact .readwrite
    · cases h
  · intro h
    generalize t.kind = k at h
    cases h <;> rfl

end Token

namespace Draft

/-- **The draft behind a list of tokens**, if the grammar lets each of them come next. -/
def run (d : Draft) (ts : List Token) : Option Draft := ts.foldlM advance d

@[simp] theorem run_nil (d : Draft) : d.run [] = some d := rfl

@[simp] theorem run_cons (d : Draft) (t : Token) (ts : List Token) :
    d.run (t :: ts) = (d.advance t).bind fun next => next.run ts := rfl

theorem run_append (d : Draft) (ts us : List Token) :
    d.run (ts ++ us) = (d.run ts).bind fun next => next.run us := by
  simp only [run, List.foldlM_append]; rfl

theorem run_trans {d d' d'' : Draft} {ts us : List Token} (h : d.run ts = some d')
    (h' : d'.run us = some d'') : d.run (ts ++ us) = some d'' := by
  rw [run_append, h]; exact h'

/-- A run over more tokens passes through what the first ones make of the draft. -/
theorem exists_run_of_append {d d'' : Draft} {ts us : List Token}
    (h : d.run (ts ++ us) = some d'') : ∃ d', d.run ts = some d' ∧ d'.run us = some d'' := by
  rw [run_append] at h
  exact Option.bind_eq_some_iff.mp h

/-! ### Where a declaration can start -/

/-- A token that can come next where a declaration can start, and the draft behind it. -/
inductive Accepts : Scope → List Annotation → Token → Draft → Prop where
  | sign {scope : Scope} {pending : List Annotation} {t : Token}
      (ht : t.kind = .punctuation .atSign) :
      Accepts scope pending t (.annotationSign scope pending t.span)
  | moduleWord {modules : List Module} {pending : List Annotation} {t : Token}
      (ht : t.kind = .keyword .module) :
      Accepts (.program modules) pending t (.moduleKeyword modules pending)
  | interfaceWord {body : ModuleBody} {pending : List Annotation} {t : Token}
      (ht : t.kind = .keyword .interface) :
      Accepts (.module body) pending t (.interfaceKeyword body pending)
  | closeModule {body : ModuleBody} {t : Token} (ht : t.kind = .punctuation .closeBrace) :
      Accepts (.module body) [] t (.ready (.program body.close) [])
  | closeInterface {body : InterfaceBody} {t : Token} (ht : t.kind = .punctuation .closeBrace) :
      Accepts (.interface body) [] t (.ready (.module body.close) [])
  | modifier {body : InterfaceBody} {pending : List Annotation} {t : Token} {v : Visibility}
      (hm : Modifies t.kind v) :
      Accepts (.interface body) pending t (.memberModifier body pending ⟨v, t.span⟩)
  | type {body : InterfaceBody} {pending : List Annotation} {t : Token} {name : String}
      (ht : t.kind = .identifier name) :
      Accepts (.interface body) pending t (.memberType body ⟨pending, none, name⟩)

/-- A closing brace counts only where no annotation waits. -/
theorem eq_nil_of_close {t : Token} {pending : List Annotation}
    (h : (t.isMark .closeBrace && pending.isEmpty) = true) :
    t.kind = .punctuation .closeBrace ∧ pending = [] := by
  obtain ⟨hm, he⟩ := Bool.and_eq_true_iff.mp h
  exact ⟨Token.isMark_iff.mp hm, List.isEmpty_iff.mp he⟩

/-- **What can come next where a declaration can start.** -/
theorem accepts_of_accept {scope : Scope} {pending : List Annotation} {t : Token} {d : Draft}
    (h : accept scope pending t = some d) : Accepts scope pending t d := by
  unfold accept at h
  split at h
  · next ha => cases h; exact .sign (Token.isMark_iff.mp ha)
  split at h
  · split at h
    · next hw => cases h; exact .moduleWord (Token.isWord_iff.mp hw)
    · cases h
  · split at h
    · next hw => cases h; exact .interfaceWord (Token.isWord_iff.mp hw)
    split at h
    · next hc =>
      cases h
      obtain ⟨hk, rfl⟩ := eq_nil_of_close hc
      exact .closeModule hk
    · cases h
  · split at h
    · next hc =>
      cases h
      obtain ⟨hk, rfl⟩ := eq_nil_of_close hc
      exact .closeInterface hk
    split at h
    · next v hv => cases h; exact .modifier (Token.visibility?_eq_some_iff.mp hv)
    · obtain ⟨name, hn, rfl⟩ := Option.map_eq_some_iff.mp h
      exact .type (Token.name?_eq_some_iff.mp hn)

/-! ### Behind annotations -/

/-- A draft that stands where a declaration of the scope can start, behind annotations. -/
inductive Awaits (scope : Scope) : List Annotation → Draft → Prop where
  | ready (pending : List Annotation) : Awaits scope pending (.ready scope pending)
  | bare (pending : List Annotation) (sign : Span) (name : String) (span : Span) :
      Awaits scope (pending ++ [⟨name, none, sign.merge span⟩])
        (.annotationName scope pending sign name span)

section Awaits
variable {scope : Scope} {pending : List Annotation} {d : Draft}

theorem advance_of_awaits (h : Awaits scope pending d) {t : Token}
    (ht : t.kind ≠ .punctuation .openParen) : d.advance t = accept scope pending t := by
  have hp : t.isMark .openParen = false := by simpa [Token.isMark] using ht
  cases h with
  | ready => rfl
  | bare => simp [advance, hp]

theorem refusal_of_awaits (h : Awaits scope pending d) (t : Token) :
    d.refusal t = refusalBetween scope pending t := by
  cases h <;> rfl

end Awaits

/-- A run over one more annotation. -/
theorem run_of_annotation {scope : Scope} {pending : List Annotation} {d : Draft}
    (hd : Awaits scope pending d) {ts : List Token} {a : Annotation} (h : AnnotationDecl ts a) :
    ∃ d', d.run ts = some d' ∧ Awaits scope (pending ++ [a]) d' := by
  cases h with
  | @bare sign word name hs hn =>
    refine ⟨.annotationName scope pending sign.span name word.span, ?_, .bare ..⟩
    rw [run_cons, advance_of_awaits hd (by simp [hs])]
    simp [accept, Token.isMark, hs, advance, Token.name?, hn]
  | @valued sign word opening literal closing name value hs hn ho hv hc =>
    refine ⟨.ready scope (pending ++ [⟨name, some value, sign.span.merge closing.span⟩]), ?_,
      .ready _⟩
    rw [run_cons, advance_of_awaits hd (by simp [hs])]
    simp [accept, Token.isMark, hs, advance, Token.name?, hn, ho,
      Token.literal?_eq_some_iff.mpr hv, hc]

/-- A run over any number of annotations. -/
theorem run_of_annotations {scope : Scope} {pending : List Annotation} {d : Draft}
    (hd : Awaits scope pending d) {ts : List Token} {as : List Annotation}
    (h : Many AnnotationDecl ts as) :
    ∃ d', d.run ts = some d' ∧ Awaits scope (pending ++ as) d' := by
  induction h generalizing pending d with
  | nil => exact ⟨d, rfl, by simpa using hd⟩
  | cons first _ ih =>
    obtain ⟨d₁, h₁, hd₁⟩ := run_of_annotation hd first
    obtain ⟨d₂, h₂, hd₂⟩ := ih hd₁
    exact ⟨d₂, run_trans h₁ h₂, by simpa using hd₂⟩

/-- A run over annotations and a token behind them, which no literal starts with. -/
theorem run_annotations_then {scope : Scope} {ts : List Token} {as : List Annotation}
    (h : Many AnnotationDecl ts as) {t : Token} (ht : t.kind ≠ .punctuation .openParen) :
    (ready scope []).run (ts ++ [t]) = accept scope as t := by
  have ha : Awaits scope [] (.ready scope []) := .ready []
  obtain ⟨d, hr, hd⟩ := run_of_annotations ha h
  rw [List.nil_append] at hd
  rw [run_append, hr]
  simp [advance_of_awaits hd ht]

/-! ### Members -/

theorem run_of_memberStart {body : InterfaceBody} {ts : List Token} {h : MemberHeading}
    (hs : MemberStart ts h) : (ready (.interface body) []).run ts = some (.memberType body h) := by
  cases hs with
  | plain ha ht =>
    rw [run_annotations_then ha (by simp [ht])]
    simp [accept, Token.isMark, Token.visibility?, Token.name?, ht]
  | @modified ts modifier type annotations v typeName ha hm ht =>
    have hk : modifier.kind ≠ .punctuation .openParen := by
      intro hk; rw [hk] at hm; cases hm
    have hc : modifier.isMark .closeBrace = false := by
      generalize hk : modifier.kind = k at hm
      cases hm <;> simp [Token.isMark, hk]
    have hat : modifier.isMark .atSign = false := by
      generalize hk : modifier.kind = k at hm
      cases hm <;> simp [Token.isMark, hk]
    rw [show ts ++ [modifier, type] = (ts ++ [modifier]) ++ [type] by simp, run_append,
      run_annotations_then ha hk]
    simp [accept, hc, hat, Token.visibility?_eq_some_iff.mpr hm, advance, Token.name?, ht]

theorem run_of_attribute {body : InterfaceBody} {ts : List Token} {a : Attribute}
    (h : AttributeDecl ts a) : (ready (.interface body) []).run ts =
      some (.ready (.interface (body.add (.attribute a))) []) := by
  obtain ⟨hs, hn, he⟩ := h
  rw [run_append, run_of_memberStart hs]
  simp [advance, Token.name?, hn, Token.isMark, he, MemberHeading.attribute]

theorem run_of_methodStart {body : InterfaceBody} {ts : List Token} {m : Method}
    (h : MethodStart ts m) :
    (ready (.interface body) []).run ts = some (.parametersOpen body m) := by
  obtain ⟨hs, hm, hn, ho⟩ := h
  rw [run_append, run_of_memberStart hs]
  simp [advance, Token.name?, hn, Token.isMark, ho, hm]

/-- Where the type of a parameter can come next: behind the opening parenthesis or a comma. -/
theorem run_of_parameter {body : InterfaceBody} {method : Method} {d : Draft}
    (hd : ∀ t : Token, t.isMark .closeParen = false → d.advance t = acceptParameter body method t)
    {ts : List Token} {p : Parameter} (h : ParameterDecl ts p) :
    d.run ts = some (.parameterName body
      { method with parameters := method.parameters ++ [p] }) := by
  obtain ⟨ht, hn⟩ := h
  rw [run_cons, hd _ (by simp [Token.isMark, ht])]
  simp [acceptParameter, Token.name?, ht, advance, hn]

theorem run_of_parameterList {body : InterfaceBody} {ts : List Token} {ps : List Parameter}
    (h : ParameterList ts ps) : ∀ (method : Method) (d : Draft),
      (∀ t : Token, t.isMark .closeParen = false → d.advance t = acceptParameter body method t) →
      d.run ts = some (.parameterName body
        { method with parameters := method.parameters ++ ps }) := by
  induction h with
  | one hp => exact fun method d hd => run_of_parameter hd hp
  | @cons ts us comma p ps hp hc _ ih =>
    intro method d hd
    rw [run_append, run_of_parameter hd hp]
    have hcomma :
        (parameterName body { method with parameters := method.parameters ++ [p] }).advance comma =
          some (.parameterComma body { method with parameters := method.parameters ++ [p] }) := by
      simp [advance, Token.isMark, hc]
    rw [Option.bind_some, run_cons, hcomma, Option.bind_some, ih _ _ fun t _ => rfl]
    simp

theorem run_of_parameters {body : InterfaceBody} {method : Method} (hm : method.parameters = [])
    {ts : List Token} {ps : List Parameter} (h : Parameters ts ps) {t : Token}
    (ht : t.kind = .punctuation .closeParen) :
    (parametersOpen body method).run (ts ++ [t]) =
      some (.parametersClose body { method with parameters := ps }) := by
  cases h with
  | none =>
    have he : { method with parameters := [] } = method := by rw [← hm]
    simp [advance, Token.isMark, ht, he]
  | list hl =>
    have hd : ∀ t : Token, t.isMark .closeParen = false →
        (parametersOpen body method).advance t = acceptParameter body method t := by
      intro t ht
      simp [advance, ht]
    rw [run_append, run_of_parameterList hl method _ hd]
    simp [advance, Token.isMark, ht, hm]

theorem parameters_of_methodStart {ts : List Token} {m : Method} (h : MethodStart ts m) :
    m.parameters = [] := by
  cases h; rfl

theorem run_of_method {body : InterfaceBody} {ts : List Token} {m : Method}
    (h : MethodDecl ts m) :
    (ready (.interface body) []).run ts = some (.ready (.interface (body.add (.method m))) []) := by
  obtain @⟨ts, us, closing, semicolon, m, ps, hs, hp, hc, he⟩ := h
  have hr : (parametersOpen body m).run (us ++ [closing]) = _ :=
    run_of_parameters (parameters_of_methodStart hs) hp hc
  rw [show ts ++ us ++ [closing, semicolon] = ts ++ ((us ++ [closing]) ++ [semicolon]) by simp,
    run_append, run_of_methodStart hs, Option.bind_some, run_append, hr]
  simp [advance, Token.isMark, he]

theorem run_of_member {body : InterfaceBody} {ts : List Token} {m : Member}
    (h : MemberDecl ts m) :
    (ready (.interface body) []).run ts = some (.ready (.interface (body.add m)) []) := by
  rcases h with h | h
  · exact run_of_attribute h
  · exact run_of_method h

theorem run_of_members {ts : List Token} {ms : List Member} (h : Many MemberDecl ts ms) :
    ∀ body : InterfaceBody, (ready (.interface body) []).run ts =
      some (.ready (.interface { body with members := body.members ++ ms }) []) := by
  induction h with
  | nil => simp
  | cons first _ ih =>
    intro body
    rw [run_append, run_of_member first, Option.bind_some, ih]
    simp [InterfaceBody.add]

/-! ### Blocks -/

theorem run_of_moduleStart {modules : List Module} {ts : List Token} {h : Heading}
    (hs : BlockStart .module ts h) :
    (ready (.program modules) []).run ts = some (.ready (.module ⟨modules, h, []⟩) []) := by
  obtain @⟨ts, keyword, label, brace, annotations, name, ha, hk, hn, hb⟩ := hs
  rw [show ts ++ [keyword, label, brace] = (ts ++ [keyword]) ++ [label, brace] by simp, run_append,
    run_annotations_then ha (by simp [hk])]
  simp [accept, Token.isMark, Token.isWord, hk, advance, Token.name?, hn, hb]

theorem run_of_interfaceStart {body : ModuleBody} {ts : List Token} {h : Heading}
    (hs : BlockStart .interface ts h) :
    (ready (.module body) []).run ts = some (.ready (.interface ⟨body, h, []⟩) []) := by
  obtain @⟨ts, keyword, label, brace, annotations, name, ha, hk, hn, hb⟩ := hs
  rw [show ts ++ [keyword, label, brace] = (ts ++ [keyword]) ++ [label, brace] by simp, run_append,
    run_annotations_then ha (by simp [hk])]
  simp [accept, Token.isMark, Token.isWord, hk, advance, Token.name?, hn, hb]

theorem run_of_interface {body : ModuleBody} {ts : List Token} {i : Interface}
    (h : InterfaceDecl ts i) : (ready (.module body) []).run ts =
      some (.ready (.module { body with interfaces := body.interfaces ++ [i] }) []) := by
  obtain ⟨hs, hm, hb⟩ := h
  rw [List.append_assoc, run_append, run_of_interfaceStart hs, Option.bind_some, run_append,
    run_of_members hm]
  simp [advance, accept, Token.isMark, hb, InterfaceBody.close]

theorem run_of_interfaces {ts : List Token} {is : List Interface}
    (h : Many InterfaceDecl ts is) : ∀ body : ModuleBody, (ready (.module body) []).run ts =
      some (.ready (.module { body with interfaces := body.interfaces ++ is }) []) := by
  induction h with
  | nil => simp
  | cons first _ ih =>
    intro body
    rw [run_append, run_of_interface first, Option.bind_some, ih]
    simp

theorem run_of_module {modules : List Module} {ts : List Token} {m : Module}
    (h : ModuleDecl ts m) : (ready (.program modules) []).run ts =
      some (.ready (.program (modules ++ [m])) []) := by
  obtain ⟨hs, hi, hb⟩ := h
  rw [List.append_assoc, run_append, run_of_moduleStart hs, Option.bind_some, run_append,
    run_of_interfaces hi]
  simp [advance, accept, Token.isMark, Token.isWord, hb, ModuleBody.close]

/-- **A run over a program adds its modules.** -/
theorem run_of_program {ts : List Token} {ms : List Module} (h : Program ts ms) :
    ∀ modules : List Module, (ready (.program modules) []).run ts =
      some (.ready (.program (modules ++ ms)) []) := by
  unfold Program at h
  induction h with
  | nil => simp
  | cons first _ ih =>
    intro modules
    rw [run_append, run_of_module first, Option.bind_some, ih]
    simp

end Draft

end Idl
