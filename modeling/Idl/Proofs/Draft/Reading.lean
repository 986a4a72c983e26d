import Idl.Proofs.Draft.Run

/-! # What a draft has read

A draft behind some tokens is a derivation cut off in the middle: the tokens are those of the
declarations that are complete, of the headings of the blocks that are open, of the annotations that
wait, and of what the last tokens began. `Draft.Reads` says so for each shape of a draft.

* `Reads.advance`: one more token keeps it (the step).
* `reads_of_run`: so every draft that a run reaches from the empty one has read the tokens of the
  run (the run).
* `run_eq_some_iff`: a run ends with a list of modules exactly if its tokens are a program with
  these modules. -/

namespace Idl

open Grammar

/-- The tokens up to a place where a declaration can start. -/
inductive Scope.Reads : Scope → List Token → Prop where
  | program {ts : List Token} {ms : List Module} (h : Program ts ms) : Reads (.program ms) ts
  | module {ts us vs : List Token} {b : ModuleBody} (hp : Program ts b.modules)
      (hs : BlockStart .module us b.heading) (hi : Many InterfaceDecl vs b.interfaces) :
      Reads (.module b) (ts ++ us ++ vs)
  | interface {ts us vs : List Token} {b : InterfaceBody} (ho : Reads (.module b.outer) ts)
      (hs : BlockStart .interface us b.heading) (hm : Many MemberDecl vs b.members) :
      Reads (.interface b) (ts ++ us ++ vs)

namespace Draft

/-- What may stand between the opening parenthesis of a method and the type of a parameter. -/
inductive BeforeParameter : List Token → List Parameter → Prop where
  | first : BeforeParameter [] []
  | comma {ts : List Token} {comma : Token} {ps : List Parameter} (h : ParameterList ts ps)
      (hc : comma.kind = .punctuation .comma) : BeforeParameter (ts ++ [comma]) ps

/-- **The tokens that a draft has read.** -/
inductive Reads : Draft → List Token → Prop where
  | ready {scope : Scope} {ts us : List Token} {pending : List Annotation} (hs : scope.Reads ts)
      (ha : Many AnnotationDecl us pending) : Reads (.ready scope pending) (ts ++ us)
  | annotationSign {scope : Scope} {ts us : List Token} {sign : Token} {pending : List Annotation}
      (hs : scope.Reads ts) (ha : Many AnnotationDecl us pending)
      (h1 : sign.kind = .punctuation .atSign) :
      Reads (.annotationSign scope pending sign.span) (ts ++ us ++ [sign])
  | annotationName {scope : Scope} {ts us : List Token} {sign word : Token}
      {pending : List Annotation} {name : String} (hs : scope.Reads ts)
      (ha : Many AnnotationDecl us pending) (h1 : sign.kind = .punctuation .atSign)
      (h2 : word.kind = .identifier name) :
      Reads (.annotationName scope pending sign.span name word.span) (ts ++ us ++ [sign, word])
  | annotationOpen {scope : Scope} {ts us : List Token} {sign word opening : Token}
      {pending : List Annotation} {name : String} (hs : scope.Reads ts)
      (ha : Many AnnotationDecl us pending) (h1 : sign.kind = .punctuation .atSign)
      (h2 : word.kind = .identifier name) (h3 : opening.kind = .punctuation .openParen) :
      Reads (.annotationOpen scope pending sign.span name) (ts ++ us ++ [sign, word, opening])
  | annotationValue {scope : Scope} {ts us : List Token} {sign word opening literal : Token}
      {pending : List Annotation} {name : String} {value : AnnotationValue} (hs : scope.Reads ts)
      (ha : Many AnnotationDecl us pending) (h1 : sign.kind = .punctuation .atSign)
      (h2 : word.kind = .identifier name) (h3 : opening.kind = .punctuation .openParen)
      (h4 : Literal literal.kind value) :
      Reads (.annotationValue scope pending sign.span name value)
        (ts ++ us ++ [sign, word, opening, literal])
  | moduleKeyword {ts us : List Token} {keyword : Token} {modules : List Module}
      {annotations : List Annotation} (hs : (Scope.program modules).Reads ts)
      (ha : Many AnnotationDecl us annotations) (h1 : keyword.kind = .keyword .module) :
      Reads (.moduleKeyword modules annotations) (ts ++ us ++ [keyword])
  | moduleName {ts us : List Token} {keyword label : Token} {modules : List Module}
      {annotations : List Annotation} {name : String} (hs : (Scope.program modules).Reads ts)
      (ha : Many AnnotationDecl us annotations) (h1 : keyword.kind = .keyword .module)
      (h2 : label.kind = .identifier name) :
      Reads (.moduleName modules ⟨annotations, name, label.span⟩) (ts ++ us ++ [keyword, label])
  | interfaceKeyword {ts us : List Token} {keyword : Token} {body : ModuleBody}
      {annotations : List Annotation} (hs : (Scope.module body).Reads ts)
      (ha : Many AnnotationDecl us annotations) (h1 : keyword.kind = .keyword .interface) :
      Reads (.interfaceKeyword body annotations) (ts ++ us ++ [keyword])
  | interfaceName {ts us : List Token} {keyword label : Token} {body : ModuleBody}
      {annotations : List Annotation} {name : String} (hs : (Scope.module body).Reads ts)
      (ha : Many AnnotationDecl us annotations) (h1 : keyword.kind = .keyword .interface)
      (h2 : label.kind = .identifier name) :
      Reads (.interfaceName body ⟨annotations, name, label.span⟩) (ts ++ us ++ [keyword, label])
  | memberModifier {ts us : List Token} {modifier : Token} {body : InterfaceBody}
      {annotations : List Annotation} {v : Visibility} (hs : (Scope.interface body).Reads ts)
      (ha : Many AnnotationDecl us annotations) (h1 : Modifies modifier.kind v) :
      Reads (.memberModifier body annotations ⟨v, modifier.span⟩) (ts ++ us ++ [modifier])
  | memberType {ts us : List Token} {body : InterfaceBody} {heading : MemberHeading}
      (hs : (Scope.interface body).Reads ts) (hm : MemberStart us heading) :
      Reads (.memberType body heading) (ts ++ us)
  | memberName {ts us : List Token} {word : Token} {body : InterfaceBody}
      {heading : MemberHeading} {name : String} (hs : (Scope.interface body).Reads ts)
      (hm : MemberStart us heading) (h1 : word.kind = .identifier name) :
      Reads (.memberName body heading name word.span) (ts ++ us ++ [word])
  | parametersOpen {ts us : List Token} {body : InterfaceBody} {m : Method}
      (hs : (Scope.interface body).Reads ts) (hm : MethodStart us m) :
      Reads (.parametersOpen body m) (ts ++ us)
  | parameterComma {ts us vs : List Token} {comma : Token} {body : InterfaceBody} {m : Method}
      {ps : List Parameter} (hs : (Scope.interface body).Reads ts) (hm : MethodStart us m)
      (hp : ParameterList vs ps) (h1 : comma.kind = .punctuation .comma) :
      Reads (.parameterComma body { m with parameters := ps }) (ts ++ us ++ vs ++ [comma])
  | parameterType {ts us vs : List Token} {type : Token} {body : InterfaceBody} {m : Method}
      {ps : List Parameter} {typeName : String} (hs : (Scope.interface body).Reads ts)
      (hm : MethodStart us m) (hp : BeforeParameter vs ps) (h1 : type.kind = .identifier typeName) :
      Reads (.parameterType body { m with parameters := ps } typeName) (ts ++ us ++ vs ++ [type])
  | parameterName {ts us vs : List Token} {body : InterfaceBody} {m : Method}
      {ps : List Parameter} (hs : (Scope.interface body).Reads ts) (hm : MethodStart us m)
      (hp : ParameterList vs ps) :
      Reads (.parameterName body { m with parameters := ps }) (ts ++ us ++ vs)
  | parametersClose {ts us vs : List Token} {closing : Token} {body : InterfaceBody} {m : Method}
      {ps : List Parameter} (hs : (Scope.interface body).Reads ts) (hm : MethodStart us m)
      (hp : Parameters vs ps) (h1 : closing.kind = .punctuation .closeParen) :
      Reads (.parametersClose body { m with parameters := ps }) (ts ++ us ++ vs ++ [closing])

/-! ### One more token -/

theorem eq_of_mark {t : Token} {mark : Punctuation} {d d' : Draft}
    (h : (if t.isMark mark then some d else none) = some d') :
    t.kind = .punctuation mark ∧ d = d' := by
  split at h
  · next hm => exact ⟨Token.isMark_iff.mp hm, Option.some.inj h⟩
  · cases h

theorem exists_of_name {t : Token} {f : String → Draft} {d' : Draft}
    (h : t.name?.map f = some d') : ∃ name, t.kind = .identifier name ∧ f name = d' := by
  obtain ⟨name, hn, hd⟩ := Option.map_eq_some_iff.mp h
  exact ⟨name, Token.name?_eq_some_iff.mp hn, hd⟩

theorem eq_nil_of_many {us : List Token} (h : Many AnnotationDecl us []) : us = [] := by
  cases h
  rfl

/-- A brace that closes a module completes it. -/
theorem reads_close_module {b : ModuleBody} {ts : List Token} {t : Token}
    (hs : (Scope.module b).Reads ts) (ht : t.kind = .punctuation .closeBrace) :
    (Scope.program b.close).Reads (ts ++ [t]) := by
  obtain _ | ⟨hp, hb, hi⟩ := hs
  have h := Scope.Reads.program (hp.snoc (ModuleDecl.mk hb hi ht))
  simpa [ModuleBody.close] using h

theorem reads_close_interface {b : InterfaceBody} {ts : List Token} {t : Token}
    (hs : (Scope.interface b).Reads ts) (ht : t.kind = .punctuation .closeBrace) :
    (Scope.module b.close).Reads (ts ++ [t]) := by
  obtain _ | _ | ⟨ho, hb, hm⟩ := hs
  obtain _ | ⟨hp, hb', hi⟩ := ho
  have h := Scope.Reads.module (b := b.close) hp hb' (hi.snoc (InterfaceDecl.mk hb hm ht))
  simpa using h

theorem reads_add {b : InterfaceBody} {ts us : List Token} {m : Member}
    (hs : (Scope.interface b).Reads ts) (hm : MemberDecl us m) :
    (Scope.interface (b.add m)).Reads (ts ++ us) := by
  obtain _ | _ | ⟨ho, hb, hms⟩ := hs
  have h := Scope.Reads.interface (b := b.add m) ho hb (hms.snoc hm)
  simpa using h

theorem reads_accept {scope : Scope} {pending : List Annotation} {ts us : List Token} {t : Token}
    {d : Draft} (hs : scope.Reads ts) (ha : Many AnnotationDecl us pending)
    (h : accept scope pending t = some d) : Reads d (ts ++ us ++ [t]) := by
  cases accepts_of_accept h with
  | sign ht => exact .annotationSign hs ha ht
  | moduleWord ht => exact .moduleKeyword hs ha ht
  | interfaceWord ht => exact .interfaceKeyword hs ha ht
  | closeModule ht =>
    obtain rfl := eq_nil_of_many ha
    simpa using Reads.ready (reads_close_module hs ht) .nil
  | closeInterface ht =>
    obtain rfl := eq_nil_of_many ha
    simpa using Reads.ready (reads_close_interface hs ht) .nil
  | modifier hm => exact .memberModifier hs ha hm
  | type ht => simpa using Reads.memberType hs (.plain ha ht)

/-- The type of a parameter, behind the opening parenthesis or a comma. -/
theorem reads_acceptParameter {body : InterfaceBody} {m : Method} {ps : List Parameter}
    {ts us vs : List Token} {t : Token} {d : Draft} (hs : (Scope.interface body).Reads ts)
    (hm : MethodStart us m) (hp : BeforeParameter vs ps)
    (h : acceptParameter body { m with parameters := ps } t = some d) :
    Reads d (ts ++ us ++ vs ++ [t]) := by
  obtain ⟨type, ht, rfl⟩ := exists_of_name h
  exact .parameterType hs hm hp ht

/-- A name behind the type of a parameter makes a longer list of parameters. -/
theorem parameterList_of_before {vs : List Token} {ps : List Parameter} {type word : Token}
    {typeName name : String} (hp : BeforeParameter vs ps) (ht : type.kind = .identifier typeName)
    (hn : word.kind = .identifier name) :
    ParameterList (vs ++ [type, word]) (ps ++ [⟨typeName, name, word.span⟩]) := by
  cases hp with
  | first => exact .one (.mk ht hn)
  | comma hl hc =>
    have h := hl.snoc hc (.mk ht hn)
    simpa using h

/-- **One more token keeps what a draft has read.** -/
theorem Reads.advance {d d' : Draft} {ts : List Token} {t : Token} (hr : Reads d ts)
    (h : d.advance t = some d') : Reads d' (ts ++ [t]) := by
  cases hr with
  | ready hs ha => exact reads_accept hs ha h
  | annotationSign hs ha h1 =>
    obtain ⟨name, hn, rfl⟩ := exists_of_name h
    simpa using Reads.annotationName hs ha h1 hn
  | annotationName hs ha h1 h2 =>
    simp only [Draft.advance] at h
    split at h
    · next ho => cases h; simpa using Reads.annotationOpen hs ha h1 h2 (Token.isMark_iff.mp ho)
    · simpa using reads_accept hs (ha.snoc (.bare h1 h2)) h
  | annotationOpen hs ha h1 h2 h3 =>
    obtain ⟨value, hv, rfl⟩ := Option.map_eq_some_iff.mp h
    simpa using Reads.annotationValue hs ha h1 h2 h3 (Token.literal?_eq_some_iff.mp hv)
  | annotationValue hs ha h1 h2 h3 h4 =>
    obtain ⟨hc, rfl⟩ := eq_of_mark h
    simpa using Reads.ready hs (ha.snoc (.valued h1 h2 h3 h4 hc))
  | moduleKeyword hs ha h1 =>
    obtain ⟨name, hn, rfl⟩ := exists_of_name h
    simpa using Reads.moduleName hs ha h1 hn
  | moduleName hs ha h1 h2 =>
    obtain ⟨hb, rfl⟩ := eq_of_mark h
    obtain ⟨hp⟩ := hs
    have hm := Scope.Reads.module (b := ⟨_, _, []⟩) hp (.mk ha h1 h2 hb) .nil
    simpa using Reads.ready hm .nil
  | interfaceKeyword hs ha h1 =>
    obtain ⟨name, hn, rfl⟩ := exists_of_name h
    simpa using Reads.interfaceName hs ha h1 hn
  | interfaceName hs ha h1 h2 =>
    obtain ⟨hb, rfl⟩ := eq_of_mark h
    have hm := Scope.Reads.interface (b := ⟨_, _, []⟩) hs (.mk ha h1 h2 hb) .nil
    simpa using Reads.ready hm .nil
  | memberModifier hs ha h1 =>
    obtain ⟨type, ht, rfl⟩ := exists_of_name h
    simpa using Reads.memberType hs (.modified ha h1 ht)
  | memberType hs hm =>
    obtain ⟨name, hn, rfl⟩ := exists_of_name h
    exact .memberName hs hm hn
  | memberName hs hm h1 =>
    simp only [Draft.advance] at h
    split at h
    · next he =>
      cases h
      have ha := reads_add hs (.attribute (.mk hm h1 (Token.isMark_iff.mp he)))
      simpa [MemberHeading.attribute] using Reads.ready ha .nil
    split at h
    · next hc =>
      cases h
      obtain ⟨ho, hv⟩ := Bool.and_eq_true_iff.mp hc
      have hn := Option.isNone_iff_eq_none.mp hv
      simpa using Reads.parametersOpen hs (.mk hm hn h1 (Token.isMark_iff.mp ho))
    · cases h
  | @parametersOpen _ _ _ m hs hm =>
    have he : { m with parameters := [] } = m := by rw [← parameters_of_methodStart hm]
    simp only [Draft.advance] at h
    split at h
    · next hc =>
      cases h
      simpa [he] using Reads.parametersClose hs hm .none (Token.isMark_iff.mp hc)
    · rw [← he] at h
      simpa using reads_acceptParameter hs hm .first h
  | parameterComma hs hm hp h1 =>
    simpa using reads_acceptParameter hs hm (.comma hp h1) h
  | parameterType hs hm hp h1 =>
    obtain ⟨name, hn, rfl⟩ := exists_of_name h
    simpa using Reads.parameterName hs hm (parameterList_of_before hp h1 hn)
  | parameterName hs hm hp =>
    simp only [Draft.advance] at h
    split at h
    · next hc => cases h; exact .parameterComma hs hm hp (Token.isMark_iff.mp hc)
    · obtain ⟨hc, rfl⟩ := eq_of_mark h
      exact .parametersClose hs hm (.list hp) hc
  | parametersClose hs hm hp h1 =>
    obtain ⟨he, rfl⟩ := eq_of_mark h
    have ha := reads_add hs (.method (.mk hm hp h1 he))
    simpa using Reads.ready ha .nil

/-! ### Runs -/

theorem reads_empty : Reads .empty [] := .ready (.program .nil) .nil

theorem Reads.run {d d' : Draft} {us : List Token} (h : d.run us = some d') {ts : List Token}
    (hr : Reads d ts) : Reads d' (ts ++ us) := by
  induction us generalizing d ts with
  | nil => cases h; simpa using hr
  | cons t us ih =>
    rw [run_cons] at h
    obtain ⟨d₁, h₁, h₂⟩ := Option.bind_eq_some_iff.mp h
    simpa using ih h₂ (hr.advance h₁)

/-- **A draft that is reached from the empty one has read the tokens of the run.** -/
theorem reads_of_run {d : Draft} {ts : List Token} (h : empty.run ts = some d) : Reads d ts :=
  reads_empty.run h

theorem program_of_reads {ms : List Module} {ts : List Token}
    (h : Reads (.ready (.program ms) []) ts) : Program ts ms := by
  obtain ⟨hs, ha⟩ := h
  obtain rfl := eq_nil_of_many ha
  obtain ⟨hp⟩ := hs
  simpa using hp

/-- **A run ends with a list of modules exactly if its tokens are a program with these modules.** -/
theorem run_eq_some_iff {ms : List Module} {ts : List Token} :
    empty.run ts = some (.ready (.program ms) []) ↔ Program ts ms := by
  constructor
  · intro h
    exact program_of_reads (reads_of_run h)
  · intro h
    have hr := run_of_program h []
    rwa [List.nil_append] at hr

end Draft

end Idl
