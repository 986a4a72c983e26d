import Idl.Proofs.Descent.Leads

/-! # The descent and the drafts

Both ways to read a program come to the same result. Each rule of the descent starts at a draft
between two declarations and, if it succeeds, leaves behind the draft to which its declaration is
added. One that may repeat a name leaves that draft or the error for the name.

* `leads_front`: annotations are read, and a declaration has to follow them.
* `leads_member`, `leads_interfaceDecl`, `leads_moduleDecl`: the rules for declarations.
* `leads_program`: the descent ends with the program that the list is read into. -/

namespace Idl.Descent

variable {ts : List Token} {result : Except ParseError (List Module)} {p q : Nat}

/-! ### Annotations -/

section Annotations
variable {scope : Scope}

/-- An annotation that no parenthesis goes on with is complete. -/
theorem readFrom_annotationName {pending : List Annotation} {sign : Span} {name : String}
    {span : Span} (ht : (tokenAt ts p).isMark .openParen = false) :
    (Draft.annotationName scope pending sign name span).readFrom ts p =
      (Draft.ready scope (pending ++ [⟨name, none, sign.merge span⟩])).readFrom ts p := by
  have hne : pending ++ [(⟨name, none, sign.merge span⟩ : Annotation)] ≠ [] := by simp
  have hadv : (Draft.annotationName scope pending sign name span).advance (tokenAt ts p) =
      (Draft.ready scope (pending ++ [⟨name, none, sign.merge span⟩])).advance (tokenAt ts p) := by
    simp only [Draft.advance, ht, Bool.false_eq_true, if_false]
  cases hn : (Draft.annotationName scope pending sign name span).advance (tokenAt ts p) with
  | none =>
    rw [Draft.readFrom_refusal hn (by simp), Draft.readFrom_refusal (hadv ▸ hn)]
    · rfl
    · exact fun _ modules h => hne (Draft.ready.inj h).2
  | some next =>
    rw [Draft.readFrom_advance rfl hn,
      Draft.readFrom_advance (Draft.clash_of_pending hne _) (hadv ▸ hn)]

theorem leads_annotate {before : List Annotation}
    (hd : (Draft.ready scope before).readFrom ts p = result)
    (ht : (tokenAt ts p).isMark .atSign = true) :
    Leads ts result p (annotate before) fun after q =>
      (Draft.ready scope after).readFrom ts q = result ∧ after ≠ [] := by
  have hk : (tokenAt ts p).kind = .punctuation .atSign := Token.isMark_iff.mp ht
  have hadv : (Draft.ready scope before).advance (tokenAt ts p) =
      some (.annotationSign scope before (tokenAt ts p).span) := by
    simp only [Draft.advance, Draft.accept, ht, if_true]
  have hclash : (Draft.ready scope before).clash (tokenAt ts p) = none :=
    Draft.clash_eq_none_of_ne (by simp [hk]) (by simp [hk])
  refine leads_take hd hclash hadv fun hd' => ?_
  have hsign : Asked ts result (p + 1) .annotationName label? fun label =>
      .annotationName scope before (tokenAt ts p).span label.1 label.2 :=
    ⟨_, hd', asks_name _ rfl rfl rfl⟩
  refine (leads_expect hsign).bind ?_
  rintro ⟨name, span⟩ q hname
  refine leads_tryMark (fun ho => ?_) fun ho => ?_
  · have hadv : (Draft.annotationName scope before (tokenAt ts p).span name span).advance
        (tokenAt ts q) = some (.annotationOpen scope before (tokenAt ts p).span name) := by
      simp only [Draft.advance, ho, if_true]
    rw [Draft.readFrom_advance rfl hadv] at hname
    have hopen : Asked ts result (q + 1) .annotationValue Token.literal?
        (.annotationValue scope before (tokenAt ts p).span name) :=
      ⟨_, hname, rfl, rfl, fun _ => rfl⟩
    refine (leads_expect hopen).bind fun value q' hq' => ?_
    have hvalue : Asked ts result q' .closeParen (Option.guard fun t => t.isMark .closeParen)
        fun closing => .ready scope
          (before ++ [⟨name, some value, (tokenAt ts p).span.merge closing.span⟩]) :=
      ⟨_, hq', asks_guard _ rfl rfl fun _ => rfl⟩
    refine (leads_expect hvalue).bind fun closing q'' hq'' => ?_
    exact leads_pure ⟨hq'', by simp⟩
  · rw [readFrom_annotationName ho] at hname
    exact leads_pure ⟨hname, by simp⟩

/-- The annotations of a declaration are read, and the declaration has to come next. -/
structure Fronted (ts : List Token) (result : Except ParseError (List Module)) (scope : Scope)
    (p : Nat) (as : List Annotation) (q : Nat) : Prop where
  reads : (Draft.ready scope as).readFrom ts q = result
  sign : (tokenAt ts q).isMark .atSign = false
  bare : as = [] → q = p
  more : as ≠ [] → (tokenAt ts q).isEnd = false ∧ (tokenAt ts q).isMark .closeBrace = false

/-- Neither the end of a block nor the end of the input can come behind annotations. -/
theorem accept_dangling {pending : List Annotation} (hp : pending ≠ []) {t : Token}
    (ht : (t.isEnd || t.isMark .closeBrace) = true) : Draft.accept scope pending t = none := by
  rcases Bool.or_eq_true_iff.mp ht with he | hb
  · exact Draft.accept_end he
  · have hk : t.kind = .punctuation .closeBrace := Token.isMark_iff.mp hb
    cases pending with
    | nil => exact absurd rfl hp
    | cons => cases scope <;> simp [Draft.accept, Token.isMark, Token.isWord, Token.visibility?,
        Token.name?, hk]

theorem leads_rejectDangling {as : List Annotation}
    (hd : (Draft.ready scope as).readFrom ts p = result) :
    Leads ts result p (rejectDangling as) fun _ q => q = p ∧
      (as ≠ [] → (tokenAt ts p).isEnd = false ∧ (tokenAt ts p).isMark .closeBrace = false) := by
  unfold rejectDangling
  cases hl : as.getLast? with
  | none =>
    have hnil : as = [] := List.getLast?_eq_none_iff.mp hl
    exact leads_pure ⟨rfl, fun h => absurd hnil h⟩
  | some last =>
    have hne : as ≠ [] := by
      rintro rfl
      cases hl
    refine leads_peek ?_
    split
    · next ht =>
      have hadv : (Draft.ready scope as).advance (tokenAt ts p) = none := accept_dangling hne ht
      refine leads_refusal hd hadv (fun _ modules h => hne (Draft.ready.inj h).2) ?_
      simp only [Draft.refusal, Draft.refusalBetween, hl, ht, if_true]
    · next ht =>
      have hboth := Bool.or_eq_false_iff.mp (Bool.eq_false_iff.mpr ht)
      exact leads_pure ⟨rfl, fun _ => hboth⟩

theorem leads_front (hd : (Draft.ready scope []).readFrom ts p = result) :
    Leads ts result p front (Fronted ts result scope p) := by
  -- Only a loop that completes no iteration stays where it began.
  have hloop : Leads ts result p annotations fun as q =>
      ((Draft.ready scope as).readFrom ts q = result ∧ (as = [] → q = p)) ∧
        (tokenAt ts q).isMark .atSign = false := by
    refine leads_loop (fun as q hq hg => ?_) ⟨hd, fun _ => rfl⟩
    exact (leads_annotate hq.1 hg).mono fun after q' h => ⟨h.1, fun hnil => absurd hnil h.2⟩
  refine hloop.bind ?_
  rintro as q ⟨⟨hreads, hbare⟩, hsign⟩
  refine (leads_rejectDangling hreads).bind ?_
  rintro - q' ⟨rfl, hmore⟩
  exact leads_pure ⟨hreads, hsign, hbare, hmore⟩

/-- Only a closing brace completes a block. -/
theorem clash_ready {as : List Annotation} {t : Token} (ht : t.isMark .closeBrace = false) :
    (Draft.ready scope as).clash t = none := by
  cases as with
  | nil => cases scope <;> simp [Draft.clash, ht]
  | cons a as => exact Draft.clash_of_pending (by simp) t

/-- Behind annotations a declaration of the scope is expected. -/
theorem refusal_ready {as : List Annotation} (hne : as ≠ []) {t : Token} (he : t.isEnd = false)
    (hb : t.isMark .closeBrace = false) :
    (Draft.ready scope as).refusal t = .unexpectedToken (Draft.declaration scope) t := by
  have hl : as.getLast? = some (as.getLast hne) := List.getLast?_eq_some_getLast hne
  simp [Draft.refusal, Draft.refusalBetween, hl, he, hb]

end Annotations

/-! ### Members -/

section Members
variable {body : InterfaceBody}

theorem startsMember_cases {t : Token} (h : startsMember t = true)
    (hs : t.isMark .atSign = false) :
    (∃ v, t.visibility? = some v) ∨ ∃ name, t.name? = some name := by
  simp only [startsMember, hs, Bool.or_false, Bool.or_eq_true] at h
  rcases h with h | h
  · exact .inr (Option.isSome_iff_exists.mp h)
  · exact .inl (Option.isSome_iff_exists.mp h)

theorem not_closeBrace_of_startsMember {t : Token} (h : startsMember t = true) :
    t.isMark .closeBrace = false := by
  refine Bool.eq_false_iff.mpr fun hb => ?_
  have hk : t.kind = .punctuation .closeBrace := Token.isMark_iff.mp hb
  simp [startsMember, Token.name?, Token.isMark, Token.visibility?, hk] at h

/-- A member without a modifier starts with its type. -/
theorem asks_type {as : List Annotation} {t : Token} (hs : t.isMark .atSign = false)
    (hv : t.visibility? = none) (hb : t.isMark .closeBrace = false)
    (hbare : as = [] → startsMember t = true) (hmore : as ≠ [] → t.isEnd = false) :
    Asks (.ready (.interface body) as) t .typeName label? fun label =>
      .memberType body ⟨as, none, label.1⟩ := by
  refine ⟨clash_ready hb, ?_, fun hl => ?_⟩
  · simp [Draft.advance, Draft.accept, hs, hb, hv, label?, Option.map_map, Function.comp_def]
  · by_cases hne : as = []
    · rcases startsMember_cases (hbare hne) hs with ⟨v, hv'⟩ | ⟨name, hn⟩
      · rw [hv] at hv'
        cases hv'
      · simp [label?, hn] at hl
    · exact refusal_ready hne (hmore hne) hb

theorem leads_modifier {as : List Annotation} (hf : Fronted ts result (.interface body) p as q)
    (hs : startsMember (tokenAt ts p) = true) :
    Leads ts result q modifier fun modifier q' =>
      Asked ts result q' .typeName label? fun label =>
        .memberType body ⟨as, modifier, label.1⟩ := by
  have hbare : as = [] → startsMember (tokenAt ts q) = true := fun h => hf.bare h ▸ hs
  have hb : (tokenAt ts q).isMark .closeBrace = false := by
    by_cases hne : as = []
    · exact not_closeBrace_of_startsMember (hbare hne)
    · exact (hf.more hne).2
  refine leads_peek ?_
  cases hv : (tokenAt ts q).visibility? with
  | none =>
    exact leads_pure ⟨_, hf.reads, asks_type hf.sign hv hb hbare fun hne => (hf.more hne).1⟩
  | some v =>
    have hadv : (Draft.ready (.interface body) as).advance (tokenAt ts q) =
        some (.memberModifier body as ⟨v, (tokenAt ts q).span⟩) := by
      simp [Draft.advance, Draft.accept, hf.sign, hb, hv]
    exact leads_take hf.reads (clash_ready hb) hadv fun hd =>
      leads_pure ⟨_, hd, asks_name _ rfl rfl rfl⟩

theorem leads_memberHeading (hd : (Draft.ready (.interface body) []).readFrom ts p = result)
    (hs : startsMember (tokenAt ts p) = true) :
    Leads ts result p memberHeading fun h q =>
      (Draft.memberType body h).readFrom ts q = result := by
  refine (leads_front hd).bind fun as q hf => ?_
  refine (leads_modifier hf hs).bind fun modifier q' hq' => ?_
  exact (leads_expect hq').bind fun type q'' hq'' => leads_pure hq''

/-! ### Parameters -/

/-- While parameters are read: another one is asked for, or they are complete. -/
def ParametersRead (ts : List Token) (result : Except ParseError (List Module))
    (body : InterfaceBody) (method : Method) (s : ParameterState) (q : Nat) : Prop :=
  if s.more then
    Asked ts result q .typeName label? fun label =>
      .parameterType body { method with parameters := s.parameters } label.1
  else
    Asked ts result q .closeParen (Option.guard fun t => t.isMark .closeParen) fun _ =>
      .parametersClose body { method with parameters := s.parameters }

theorem leads_parameter {method : Method} {s : ParameterState} (hs : s.more = true)
    (h : ParametersRead ts result body method s p) :
    Leads ts result p (parameter s) (ParametersRead ts result body method) := by
  rw [ParametersRead, if_pos hs] at h
  refine (leads_expect h).bind ?_
  rintro ⟨type, _⟩ q hq
  have htype : Asked ts result q .parameterName label? fun label => .parameterName body
      { method with parameters := s.parameters ++ [⟨type, label.1, label.2⟩] } :=
    ⟨_, hq, asks_name _ rfl rfl rfl⟩
  refine (leads_expect htype).bind ?_
  rintro ⟨name, span⟩ q' hq'
  refine leads_tryMark (fun hc => leads_pure ?_) fun hc => leads_pure ?_
  · rw [ParametersRead, if_pos rfl]
    have hadv : (Draft.parameterName body { method with parameters :=
        s.parameters ++ [⟨type, name, span⟩] }).advance (tokenAt ts q') = some (.parameterComma body
        { method with parameters := s.parameters ++ [⟨type, name, span⟩] }) := by
      simp only [Draft.advance, hc, if_true]
    rw [Draft.readFrom_advance rfl hadv] at hq'
    exact ⟨_, hq', asks_name _ rfl rfl rfl⟩
  · rw [ParametersRead, if_neg Bool.false_ne_true]
    refine ⟨_, hq', asks_guard _ rfl ?_ fun _ => rfl⟩
    simp only [Draft.advance, hc, Bool.false_eq_true, if_false]

theorem leads_parameters (method : Method)
    (hd : (Draft.parametersOpen body { method with parameters := [] }).readFrom ts p = result) :
    Leads ts result p parameters fun ps q =>
      Asked ts result q .closeParen (Option.guard fun t => t.isMark .closeParen) fun _ =>
        .parametersClose body { method with parameters := ps } := by
  refine leads_peek ?_
  split
  · next ht =>
    refine leads_pure ⟨_, hd, asks_guard _ rfl ?_ fun hf => absurd ht (by simp [hf])⟩
    rw [Draft.advance, if_pos ht, if_pos ht]
  · next ht =>
    have hstart : ParametersRead ts result body method ⟨[], true⟩ p := by
      rw [ParametersRead, if_pos rfl]
      refine ⟨_, hd, asks_name _ rfl ?_ rfl⟩
      rw [Draft.advance, if_neg ht, Draft.acceptParameter]
    have hloop : Leads ts result p (loop parameterLoop ⟨[], true⟩) fun s q =>
        ParametersRead ts result body method s q ∧ parameterLoop.goesOn s (tokenAt ts q) = false :=
      leads_loop (fun s q hq hg => leads_parameter hg hq) hstart
    refine hloop.bind ?_
    rintro s q ⟨hq, hg⟩
    rw [ParametersRead, if_neg (by simpa [parameterLoop] using hg)] at hq
    exact leads_pure hq

/-! ### Members as a whole -/

theorem leads_methodRest {h : MemberHeading} {name : String} {span : Span}
    (hd : (Draft.memberName body h name span).readFrom ts p = result)
    (ht : (tokenAt ts p).isMark .openParen = true) :
    Leads ts result p (methodRest h name span) fun m q =>
      Completed ts result (memberClash body.members m) (.ready (.interface (body.add m)) []) q := by
  have hk : (tokenAt ts p).kind = .punctuation .openParen := Token.isMark_iff.mp ht
  unfold methodRest
  cases hm : h.modifier with
  | some modifier =>
    have hadv : (Draft.memberName body h name span).advance (tokenAt ts p) = none := by
      simp [Draft.advance, Token.isMark, hk, hm]
    refine leads_refusal hd hadv (by simp) ?_
    simp only [Draft.refusal, hm, ht, if_true]
  | none =>
    have hadv : (Draft.memberName body h name span).advance (tokenAt ts p) =
        some (.parametersOpen body ⟨h.type, name, [], h.annotations, span⟩) := by
      simp [Draft.advance, Token.isMark, hk, hm]
    have hclash : (Draft.memberName body h name span).clash (tokenAt ts p) = none :=
      Draft.clash_eq_none_of_ne (by simp [hk]) (by simp [hk])
    refine leads_take hd hclash hadv fun hd' => ?_
    refine (leads_parameters ⟨h.type, name, [], h.annotations, span⟩ hd').bind fun ps q hq => ?_
    refine (leads_expect hq).bind fun _ q' hq' => ?_
    let m : Member := .method ⟨h.type, name, ps, h.annotations, span⟩
    have hsemicolon : Asked ts result q' .semicolon (Option.guard fun t => t.isMark .semicolon)
        fun _ => .ready (.interface (body.add m)) [] := ⟨_, hq', asks_guard _ rfl rfl fun _ => rfl⟩
    exact (leads_expect hsemicolon).bind fun _ q'' hq'' => leads_pure hq''

theorem leads_memberRest {h : MemberHeading} {name : String} {span : Span}
    (hd : (Draft.memberName body h name span).readFrom ts p = result) :
    Leads ts result p (memberRest h name span) fun m q =>
      Completed ts result (memberClash body.members m) (.ready (.interface (body.add m)) []) q := by
  refine leads_peek ?_
  split
  · next ht => exact leads_methodRest hd ht
  · next ht =>
    refine leads_tryMark (fun hs => ?_) fun hs => ?_
    · have hadv : (Draft.memberName body h name span).advance (tokenAt ts p) =
          some (.ready (.interface (body.add (.attribute (h.attribute name span)))) []) := by
        simp only [Draft.advance, hs, if_true]
      have hclash : (Draft.memberName body h name span).clash (tokenAt ts p) =
          memberClash body.members (.attribute (h.attribute name span)) := by
        simp only [Draft.clash, hs, if_true]
        rfl
      exact leads_pure (completed_of_advance hd hclash hadv)
    · have hadv : (Draft.memberName body h name span).advance (tokenAt ts p) = none := by
        simp [Draft.advance, hs, ht]
      refine leads_refusal hd hadv (by simp) ?_
      cases hm : h.modifier with
      | none => simp only [Draft.refusal, hm]
      | some modifier => simp only [Draft.refusal, hm, ht, Bool.false_eq_true, if_false]

theorem leads_member (hd : (Draft.ready (.interface body) []).readFrom ts p = result)
    (hs : startsMember (tokenAt ts p) = true) :
    Leads ts result p member fun m q =>
      Completed ts result (memberClash body.members m) (.ready (.interface (body.add m)) []) q := by
  refine (leads_memberHeading hd hs).bind fun h q hq => ?_
  have htype : Asked ts result q .memberName label? fun label =>
      .memberName body h label.1 label.2 := ⟨_, hq, asks_name _ rfl rfl rfl⟩
  exact (leads_expect htype).bind fun label q' hq' => leads_memberRest hq'

end Members

/-! ### Blocks -/

section Blocks

theorem leads_nextMember {outer : ModuleBody} {heading : Heading} {before : List Member}
    (hd : (Draft.ready (.interface ⟨outer, heading, before⟩) []).readFrom ts p = result)
    (ht : (tokenAt ts p).isMark .closeBrace = false) :
    Leads ts result p (nextMember before) fun after q =>
      (Draft.ready (.interface ⟨outer, heading, after⟩) []).readFrom ts q = result := by
  refine leads_peek ?_
  split
  · next hs =>
    exact (leads_member hd hs).bind fun m q hq =>
      leads_add (fun after => .ready (.interface ⟨outer, heading, after⟩) []) hq
  · next hs =>
    simp only [startsMember, Bool.or_eq_true, not_or, Bool.not_eq_true, Option.isSome_eq_false_iff,
      Option.isNone_iff_eq_none] at hs
    obtain ⟨⟨hname, hsign⟩, hvisibility⟩ := hs
    have hadv : (Draft.ready (.interface ⟨outer, heading, before⟩) []).advance (tokenAt ts p) =
        none := by
      simp [Draft.advance, Draft.accept, hsign, ht, hvisibility, hname]
    exact leads_refusal hd hadv (by simp) rfl

/-- Members are read up to a closing brace. -/
theorem leads_members {outer : ModuleBody} {heading : Heading}
    (hd : (Draft.ready (.interface ⟨outer, heading, []⟩) []).readFrom ts p = result) :
    Leads ts result p (loop memberLoop []) fun members q =>
      (Draft.ready (.interface ⟨outer, heading, members⟩) []).readFrom ts q = result ∧
        (tokenAt ts q).isMark .closeBrace = true := by
  refine (leads_loop (fun members q hq hg => ?_) hd).mono fun members q h => ⟨h.1, ?_⟩
  · exact leads_nextMember hq (by simpa [memberLoop] using hg)
  · simpa [memberLoop] using h.2

theorem leads_blockStart {keyword name : Expected} {word : Keyword} {behindWord : Draft}
    {behindName behindBrace : String × Span → Draft}
    (hw : Asked ts result p keyword (Option.guard fun t => t.isWord word) fun _ => behindWord)
    (hn : ∀ t, Asks behindWord t name label? behindName)
    (hb : ∀ label t, Asks (behindName label) t .openBrace
      (Option.guard fun t => t.isMark .openBrace) fun _ => behindBrace label) :
    Leads ts result p (blockStart keyword word name) fun label q =>
      (behindBrace label).readFrom ts q = result := by
  refine (leads_expect hw).bind fun _ q hq => ?_
  refine (leads_expect ⟨_, hq, hn _⟩).bind fun label q' hq' => ?_
  exact (leads_expect ⟨_, hq', hb label _⟩).bind fun _ q'' hq'' => leads_pure hq''

section Word
variable {scope : Scope} {as : List Annotation} {word : Keyword}

theorem not_closeBrace_of_isWord {t : Token} (h : t.isWord word = true) :
    t.isMark .closeBrace = false := by
  simp [Token.isMark, Token.isWord_iff.mp h]

/-- The word that a block starts with comes next, if no annotation waits for it. -/
theorem Fronted.isWord (hf : Fronted ts result scope p as q)
    (hs : ((tokenAt ts p).isMark .atSign || (tokenAt ts p).isWord word) = true) (h : as = []) :
    (tokenAt ts q).isWord word = true := by
  have hsign : (tokenAt ts p).isMark .atSign = false := hf.bare h ▸ hf.sign
  rw [hsign, Bool.false_or] at hs
  rw [hf.bare h]
  exact hs

theorem Fronted.not_closeBrace (hf : Fronted ts result scope p as q)
    (hs : ((tokenAt ts p).isMark .atSign || (tokenAt ts p).isWord word) = true) :
    (tokenAt ts q).isMark .closeBrace = false := by
  by_cases h : as = []
  · exact not_closeBrace_of_isWord (hf.isWord hs h)
  · exact (hf.more h).2

/-- Behind its annotations the word of a block is asked for. -/
theorem Fronted.asks_word {next : Draft} (hf : Fronted ts result scope p as q)
    (hs : ((tokenAt ts p).isMark .atSign || (tokenAt ts p).isWord word) = true)
    (ha : (Draft.ready scope as).advance (tokenAt ts q) =
      if (tokenAt ts q).isWord word then some next else none) :
    Asked ts result q (Draft.declaration scope) (Option.guard fun t => t.isWord word)
      fun _ => next := by
  refine ⟨_, hf.reads, asks_guard _ (clash_ready (hf.not_closeBrace hs)) ha fun hw => ?_⟩
  by_cases h : as = []
  · rw [hf.isWord hs h] at hw
    cases hw
  · exact refusal_ready h (hf.more h).1 (hf.more h).2

end Word

theorem leads_interfaceDecl {body : ModuleBody}
    (hd : (Draft.ready (.module body) []).readFrom ts p = result)
    (hs : ((tokenAt ts p).isMark .atSign || (tokenAt ts p).isWord .interface) = true) :
    Leads ts result p interfaceDecl fun i q =>
      Completed ts result (interfaceClash body.interfaces i)
        (.ready (.module { body with interfaces := body.interfaces ++ [i] }) []) q := by
  refine (leads_front hd).bind fun as q hf => ?_
  have hword : Asked ts result q .interfaceKeyword (Option.guard fun t => t.isWord .interface)
      fun _ => .interfaceKeyword body as := by
    refine hf.asks_word hs ?_
    simp [Draft.advance, Draft.accept, hf.sign, hf.not_closeBrace hs]
  have hstart : Leads ts result q (blockStart .interfaceKeyword .interface .interfaceName)
      fun label q' =>
        (Draft.ready (.interface ⟨body, ⟨as, label.1, label.2⟩, []⟩) []).readFrom ts q' = result :=
    leads_blockStart hword (fun t => asks_name
      (fun label => .interfaceName body ⟨as, label.1, label.2⟩) rfl rfl rfl)
      fun label t => asks_guard _ rfl rfl fun _ => rfl
  refine hstart.bind ?_
  rintro ⟨name, span⟩ q' hq'
  refine (leads_members hq').bind ?_
  rintro members q'' ⟨hq'', hclose⟩
  have hk : (tokenAt ts q'').kind = .punctuation .closeBrace := Token.isMark_iff.mp hclose
  have hadv : (Draft.ready (.interface ⟨body, ⟨as, name, span⟩, members⟩) []).advance
      (tokenAt ts q'') = some (.ready (.module { body with
        interfaces := body.interfaces ++ [.ofMembers name members as span] }) []) := by
    simp [Draft.advance, Draft.accept, Token.isMark, hk, InterfaceBody.close]
  have hclash : (Draft.ready (.interface ⟨body, ⟨as, name, span⟩, members⟩) []).clash
      (tokenAt ts q'') = interfaceClash body.interfaces (.ofMembers name members as span) := by
    simp only [Draft.clash, hclose, if_true]
    rfl
  exact leads_takeMark hclose hq'' hclash hadv fun h => leads_pure h

theorem leads_nextInterface {modules : List Module} {heading : Heading} {before : List Interface}
    (hd : (Draft.ready (.module ⟨modules, heading, before⟩) []).readFrom ts p = result)
    (ht : (tokenAt ts p).isMark .closeBrace = false) :
    Leads ts result p (nextInterface before) fun after q =>
      (Draft.ready (.module ⟨modules, heading, after⟩) []).readFrom ts q = result := by
  refine leads_peek ?_
  split
  · next hs =>
    exact (leads_interfaceDecl hd hs).bind fun i q hq =>
      leads_add (fun after => .ready (.module ⟨modules, heading, after⟩) []) hq
  · next hs =>
    obtain ⟨hsign, hword⟩ := Bool.or_eq_false_iff.mp (Bool.eq_false_iff.mpr hs)
    have hadv : (Draft.ready (.module ⟨modules, heading, before⟩) []).advance (tokenAt ts p) =
        none := by
      simp [Draft.advance, Draft.accept, hsign, ht, hword]
    exact leads_refusal hd hadv (by simp) rfl

/-- Interfaces are read up to a closing brace. -/
theorem leads_interfaces {modules : List Module} {heading : Heading}
    (hd : (Draft.ready (.module ⟨modules, heading, []⟩) []).readFrom ts p = result) :
    Leads ts result p (loop interfaceLoop []) fun interfaces q =>
      (Draft.ready (.module ⟨modules, heading, interfaces⟩) []).readFrom ts q = result ∧
        (tokenAt ts q).isMark .closeBrace = true := by
  refine (leads_loop (fun interfaces q hq hg => ?_) hd).mono fun interfaces q h => ⟨h.1, ?_⟩
  · exact leads_nextInterface hq (by simpa [interfaceLoop] using hg)
  · simpa [interfaceLoop] using h.2

theorem leads_moduleDecl {modules : List Module} {as : List Annotation}
    (hword : Asked ts result p .moduleKeyword (Option.guard fun t => t.isWord .module)
      fun _ => .moduleKeyword modules as) :
    Leads ts result p (moduleDecl as) fun m q => Completed ts result (moduleClash modules m.1 m.2)
      (.ready (.program (modules ++ [m.1])) []) q := by
  have hstart : Leads ts result p (blockStart .moduleKeyword .module .moduleName) fun label q =>
      (Draft.ready (.module ⟨modules, ⟨as, label.1, label.2⟩, []⟩) []).readFrom ts q = result :=
    leads_blockStart hword (fun t => asks_name
      (fun label => .moduleName modules ⟨as, label.1, label.2⟩) rfl rfl rfl)
      fun label t => asks_guard _ rfl rfl fun _ => rfl
  refine hstart.bind ?_
  rintro ⟨name, span⟩ q hq
  refine (leads_interfaces hq).bind ?_
  rintro interfaces q' ⟨hq', hclose⟩
  have hk : (tokenAt ts q').kind = .punctuation .closeBrace := Token.isMark_iff.mp hclose
  have hadv : (Draft.ready (.module ⟨modules, ⟨as, name, span⟩, interfaces⟩) []).advance
      (tokenAt ts q') =
        some (.ready (.program (modules ++ [⟨name, interfaces, as, span⟩])) []) := by
    simp [Draft.advance, Draft.accept, Token.isMark, Token.isWord, hk, ModuleBody.close]
  have hclash : (Draft.ready (.module ⟨modules, ⟨as, name, span⟩, interfaces⟩) []).clash
      (tokenAt ts q') =
        moduleClash modules ⟨name, interfaces, as, span⟩ (tokenAt ts q').span := by
    simp only [Draft.clash, hclose, if_true]
    rfl
  exact leads_takeMark hclose hq' hclash hadv fun h => leads_pure h

theorem leads_nextModule {before : List Module}
    (hd : (Draft.ready (.program before) []).readFrom ts p = result)
    (ht : (tokenAt ts p).isEnd = false) :
    Leads ts result p (nextModule before) fun after q =>
      (Draft.ready (.program after) []).readFrom ts q = result := by
  refine leads_peek ?_
  split
  · next hs =>
    refine (leads_front hd).bind fun as q hf => ?_
    have hword : Asked ts result q .moduleKeyword (Option.guard fun t => t.isWord .module)
        fun _ => .moduleKeyword before as := by
      refine hf.asks_word hs ?_
      simp [Draft.advance, Draft.accept, hf.sign]
    exact (leads_moduleDecl hword).bind fun m q' hq' =>
      leads_add (fun after => .ready (.program after) []) hq'
  · next hs =>
    obtain ⟨hsign, hword⟩ := Bool.or_eq_false_iff.mp (Bool.eq_false_iff.mpr hs)
    have hadv : (Draft.ready (.program before) []).advance (tokenAt ts p) = none := by
      simp [Draft.advance, Draft.accept, hsign, hword]
    exact leads_refusal hd hadv (by simp [ht]) rfl

end Blocks

/-- **The descent ends with the program that the list is read into.** -/
theorem leads_program (ts : List Token) :
    Leads ts (parse ts) 0 program fun modules _ => parse ts = .ok modules := by
  have hstart : (Draft.ready (.program []) []).readFrom ts 0 = parse ts := by
    rw [Draft.readFrom, List.drop_zero, parse, Draft.empty]
  have hloop : Leads ts (parse ts) 0 (loop moduleLoop []) fun modules q =>
      (Draft.ready (.program modules) []).readFrom ts q = parse ts ∧
        moduleLoop.goesOn modules (tokenAt ts q) = false :=
    leads_loop (fun modules q hq hg => leads_nextModule hq (by simpa [moduleLoop] using hg)) hstart
  refine hloop.mono ?_
  rintro modules q ⟨hq, hg⟩
  have hend : (tokenAt ts q).isEnd = true := by simpa [moduleLoop] using hg
  rw [← hq, Draft.readFrom_end _ hend]
  rfl

end Idl.Descent
