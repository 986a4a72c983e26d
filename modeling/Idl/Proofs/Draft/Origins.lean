import Idl.Parse
import Idl.Proofs.Draft.Repeats
import Idl.Proofs.Lexeme.Positions

/-! # Where declarations and errors stand

A program and a parse error take their spans from tokens: a declaration has the span of its name, an
annotation the range from its sign to its last token, and an error the span of a token, of a
declaration or of an annotation. So each of them is the span of a token or the range from one token
to a later one (`Span.From`). This is read off the grammar, rule by rule, and off the drafts behind
which a token is refused.

Tokens of a text are faithful to it and stand one behind the other (`Token.InPlace`), so what is
taken from them is faithful too. An error that refers to an earlier place takes it from tokens in
front of those at which it is shown (`ParseError.From`), so the two places are apart and in order.

* `Grammar.Program.spans_from`: where the spans of a program come from.
* `parse_error_from`: where the spans of a parse error come from.
* `positions_faithful`: everything that is told about a text is told where it stands. -/

namespace Idl

open Grammar

/-! ### Spans that come from tokens -/

/-- **A span that some tokens give**: the span of one of them, or the range from one to a later
one. -/
inductive Span.From (ts : List Token) : Span → Prop where
  | token {t : Token} (ht : t ∈ ts) : From ts t.span
  | range {t u : Token} (h : [t, u].Sublist ts) : From ts (t.span.merge u.span)

/-- Tokens that stand in a text, one behind the other. -/
structure Token.InPlace (source : String) (ts : List Token) : Prop where
  faithful : ∀ t ∈ ts, t.span.Faithful source
  ordered : ts.Pairwise fun t u => t.span.stop ≤ u.span.start

theorem Token.InPlace.sublist {source : String} {ts us : List Token} (h : InPlace source us)
    (hsub : ts.Sublist us) : InPlace source ts :=
  ⟨fun t ht => h.faithful t (hsub.mem ht), h.ordered.sublist hsub⟩

namespace Span.From

variable {source : String} {ts us vs : List Token} {s s' : Span}

theorem mono (h : s.From ts) (hsub : ts.Sublist us) : s.From us := by
  rcases h with ht | hrange
  · exact .token (hsub.mem ht)
  · exact .range (hrange.trans hsub)

theorem append_left (h : s.From ts) (us : List Token) : s.From (ts ++ us) :=
  h.mono (List.sublist_append_left ts us)

theorem append_right (h : s.From us) (ts : List Token) : s.From (ts ++ us) :=
  h.mono (List.sublist_append_right ts us)

/-- **A span that comes from tokens in place is faithful**, and it starts where one of them starts
and ends where one of them ends. -/
theorem inPlace (h : s.From ts) (hts : Token.InPlace source ts) :
    s.Faithful source ∧ (∃ t ∈ ts, s.start = t.span.start) ∧ ∃ u ∈ ts, s.stop = u.span.stop := by
  rcases h with ht | @⟨t, u, hrange⟩
  · exact ⟨hts.faithful _ ht, ⟨_, ht, rfl⟩, ⟨_, ht, rfl⟩⟩
  · have ht : t ∈ ts := hrange.mem (by simp)
    have hu : u ∈ ts := hrange.mem (by simp)
    have hbefore : t.span.stop ≤ u.span.start :=
      List.rel_of_pairwise_cons (hts.ordered.sublist hrange) List.mem_cons_self
    have htfaithful := hts.faithful t ht
    have hufaithful := hts.faithful u hu
    have htle := htfaithful.start_le_stop
    have hule := hufaithful.start_le_stop
    refine ⟨htfaithful.merge hufaithful hbefore, ⟨t, ht, ?_⟩, ⟨u, hu, ?_⟩⟩
    · rw [start_merge]
      omega
    · rw [stop_merge]
      omega

/-- **Spans that come from tokens one behind the other are apart.** -/
theorem stop_le_start (hs : s.From us) (hs' : s'.From vs)
    (h : Token.InPlace source (us ++ vs)) : s.stop ≤ s'.start := by
  obtain ⟨-, -, u, hu, hstop⟩ := hs.inPlace (h.sublist (List.sublist_append_left us vs))
  obtain ⟨-, ⟨v, hv, hstart⟩, -⟩ := hs'.inPlace (h.sublist (List.sublist_append_right us vs))
  rw [hstop, hstart]
  exact (List.pairwise_append.mp h.ordered).2.2 u hu v hv

end Span.From

/-! ### The spans of a program -/

/-- All spans of an attribute. -/
def Attribute.spans (a : Attribute) : List Span := a.span :: a.annotations.map Annotation.span

/-- All spans of a method. -/
def Method.spans (m : Method) : List Span :=
  m.span :: (m.annotations.map Annotation.span ++ m.parameters.map Parameter.span)

/-- All spans of a member. -/
def Member.spans : Member → List Span
  | .attribute a => a.spans
  | .method m => m.spans

/-- All spans of an interface. -/
def Interface.spans (i : Interface) : List Span :=
  i.span :: (i.annotations.map Annotation.span ++ i.attributes.flatMap Attribute.spans ++
    i.methods.flatMap Method.spans)

/-- **All spans of a module.** -/
def Module.spans (m : Module) : List Span :=
  m.span :: (m.annotations.map Annotation.span ++ m.interfaces.flatMap Interface.spans)

namespace Grammar

/-- What comes from the tokens of one piece comes from those of the list. -/
theorem Many.spans_from {α : Type} {piece : List Token → α → Prop} {spans : α → List Span}
    {ts : List Token} {as : List α} (h : Many piece ts as)
    (hpiece : ∀ us a, piece us a → ∀ s ∈ spans a, s.From us) :
    ∀ a ∈ as, ∀ s ∈ spans a, s.From ts := by
  induction h with
  | nil => simp
  | @cons ts us a as first _ ih =>
    refine List.forall_mem_cons.mpr ⟨fun s hs => ?_, fun b hb s hs => ?_⟩
    · exact (hpiece ts a first s hs).append_left us
    · exact (ih b hb s hs).append_right ts

theorem AnnotationDecl.span_from {ts : List Token} {a : Annotation} (h : AnnotationDecl ts a) :
    a.span.From ts := by
  rcases h with _ | ⟨hs, hn, ho, hv, hc⟩
  · exact .range (List.Sublist.refl _)
  · refine .range (List.Sublist.cons_cons _ ?_)
    exact List.sublist_append_right [_, _, _] [_]

theorem annotations_from {ts : List Token} {as : List Annotation}
    (h : Many AnnotationDecl ts as) : ∀ s ∈ as.map Annotation.span, s.From ts := by
  have hall : ∀ a ∈ as, ∀ s ∈ [a.span], s.From ts :=
    h.spans_from fun _ _ ha => List.forall_mem_singleton.mpr ha.span_from
  refine List.forall_mem_map.mpr fun a ha => ?_
  exact hall a ha a.span List.mem_cons_self

theorem ParameterDecl.span_from {ts : List Token} {p : Parameter} (h : ParameterDecl ts p) :
    p.span.From ts := by
  obtain ⟨-, -⟩ := h
  exact .token (by simp)

theorem ParameterList.spans_from {ts : List Token} {ps : List Parameter}
    (h : ParameterList ts ps) : ∀ s ∈ ps.map Parameter.span, s.From ts := by
  induction h with
  | one hp => exact List.forall_mem_singleton.mpr hp.span_from
  | @cons ts us comma p ps hp _ _ ih =>
    refine List.forall_mem_cons.mpr ⟨hp.span_from.append_left _, fun s hs => ?_⟩
    have hlater : s.From (comma :: us) := (ih s hs).mono (List.sublist_cons_self comma us)
    exact hlater.append_right ts

theorem Parameters.spans_from {ts : List Token} {ps : List Parameter} (h : Parameters ts ps) :
    ∀ s ∈ ps.map Parameter.span, s.From ts := by
  rcases h with _ | hl
  · simp
  · exact hl.spans_from

theorem MemberStart.annotations_from {ts : List Token} {h : MemberHeading}
    (hs : MemberStart ts h) : ∀ s ∈ h.annotations.map Annotation.span, s.From ts := by
  intro s hmem
  rcases hs with ⟨ha, -⟩ | ⟨ha, -, -⟩
  · exact (Grammar.annotations_from ha s hmem).append_left _
  · exact (Grammar.annotations_from ha s hmem).append_left _

theorem AttributeDecl.spans_from {ts : List Token} {a : Attribute} (h : AttributeDecl ts a) :
    ∀ s ∈ a.spans, s.From ts := by
  obtain ⟨hs, -, -⟩ := h
  refine List.forall_mem_cons.mpr ⟨.token (by simp), fun s hmem => ?_⟩
  exact (hs.annotations_from s hmem).append_left _

theorem MethodDecl.spans_from {ts : List Token} {m : Method} (h : MethodDecl ts m) :
    ∀ s ∈ m.spans, s.From ts := by
  obtain ⟨⟨hs, -, -, -⟩, hp, -, -⟩ := h
  refine List.forall_mem_cons.mpr ⟨.token (by simp), List.forall_mem_append.mpr ⟨?_, ?_⟩⟩
  · intro s hmem
    exact (((hs.annotations_from s hmem).append_left _).append_left _).append_left _
  · intro s hmem
    exact ((hp.spans_from s hmem).append_right _).append_left _

theorem MemberDecl.spans_from {ts : List Token} {m : Member} (h : MemberDecl ts m) :
    ∀ s ∈ m.spans, s.From ts := by
  rcases h with ha | hm
  · exact ha.spans_from
  · exact hm.spans_from

/-- The front of a block brings the span of its name and those of its annotations. -/
theorem BlockStart.spans_from {word : Keyword} {ts : List Token} {h : Heading}
    (hs : BlockStart word ts h) :
    h.span.From ts ∧ ∀ s ∈ h.annotations.map Annotation.span, s.From ts := by
  obtain ⟨ha, -, -, -⟩ := hs
  refine ⟨.token (by simp), fun s hmem => ?_⟩
  exact (Grammar.annotations_from ha s hmem).append_left _

/-- The attributes among some members. -/
theorem attributes_from {ts : List Token} {ms : List Member} (h : Many MemberDecl ts ms) :
    ∀ a ∈ ms.filterMap Member.attribute?, ∀ s ∈ a.spans, s.From ts := by
  intro a ha
  obtain ⟨member, hmem, he⟩ := List.mem_filterMap.mp ha
  rcases member with b | m
  · cases he
    exact h.spans_from (fun _ _ => MemberDecl.spans_from) _ hmem
  · cases he

/-- The methods among some members. -/
theorem methods_from {ts : List Token} {ms : List Member} (h : Many MemberDecl ts ms) :
    ∀ m ∈ ms.filterMap Member.method?, ∀ s ∈ m.spans, s.From ts := by
  intro m hm
  obtain ⟨member, hmem, he⟩ := List.mem_filterMap.mp hm
  rcases member with a | m'
  · cases he
  · cases he
    exact h.spans_from (fun _ _ => MemberDecl.spans_from) _ hmem

theorem InterfaceDecl.spans_from {ts : List Token} {i : Interface} (h : InterfaceDecl ts i) :
    ∀ s ∈ i.spans, s.From ts := by
  obtain ⟨hs, hm, -⟩ := h
  obtain ⟨hspan, hannotations⟩ := hs.spans_from
  refine List.forall_mem_cons.mpr ⟨(hspan.append_left _).append_left _, fun s hmem => ?_⟩
  rcases List.mem_append.mp hmem with hmem | hmem
  · rcases List.mem_append.mp hmem with hmem | hmem
    · exact ((hannotations s hmem).append_left _).append_left _
    · obtain ⟨a, ha, hsa⟩ := List.mem_flatMap.mp hmem
      exact ((attributes_from hm a ha s hsa).append_right _).append_left _
  · obtain ⟨m, hm', hsm⟩ := List.mem_flatMap.mp hmem
    exact ((methods_from hm m hm' s hsm).append_right _).append_left _

theorem interfaces_from {ts : List Token} {is : List Interface} (h : Many InterfaceDecl ts is) :
    ∀ i ∈ is, ∀ s ∈ i.spans, s.From ts :=
  h.spans_from fun _ _ => InterfaceDecl.spans_from

theorem ModuleDecl.spans_from {ts : List Token} {m : Module} (h : ModuleDecl ts m) :
    ∀ s ∈ m.spans, s.From ts := by
  obtain ⟨hs, hi, -⟩ := h
  obtain ⟨hspan, hannotations⟩ := hs.spans_from
  refine List.forall_mem_cons.mpr ⟨(hspan.append_left _).append_left _, fun s hmem => ?_⟩
  rcases List.mem_append.mp hmem with hmem | hmem
  · exact ((hannotations s hmem).append_left _).append_left _
  · obtain ⟨i, hi', hsi⟩ := List.mem_flatMap.mp hmem
    exact ((interfaces_from hi i hi' s hsi).append_right _).append_left _

/-- **All spans of a program come from its tokens.** -/
theorem Program.spans_from {ts : List Token} {program : List Module} (h : Program ts program) :
    ∀ m ∈ program, ∀ s ∈ m.spans, s.From ts :=
  Many.spans_from h fun _ _ => ModuleDecl.spans_from

end Grammar

/-! ### The spans of an error -/

/-- **An error that some tokens give.** It is shown at the last of them, and what it refers to comes
from those before. -/
def ParseError.From (ts : List Token) (e : ParseError) : Prop :=
  ∃ us vs, ts = us ++ vs ∧ e.span.From vs ∧ ∀ previous ∈ e.previous, previous.From us

/-- An error at the last token that refers to nothing else. -/
theorem ParseError.from_last {us : List Token} {t : Token} {e : ParseError}
    (hspan : e.span = t.span) (hprevious : e.previous = none) : e.From (us ++ [t]) := by
  refine ⟨us, [t], rfl, ?_, ?_⟩
  · rw [hspan]
    exact .token List.mem_cons_self
  · intro previous h
    rw [hprevious] at h
    cases h

theorem FirstNamed.mem {α : Type} {nameOf : α → String} {declared : List α} {name : String}
    {first : α} (h : FirstNamed nameOf declared name first) : first ∈ declared := by
  obtain ⟨before, later, rfl, -, -⟩ := h
  exact List.mem_append_right _ List.mem_cons_self

/-- **A repeated name is shown behind the first declaration of that name.** -/
theorem Repeats.from_tokens {ts : List Token} {e : ParseError} (h : Repeats ts e) : e.From ts := by
  -- The first declaration of the name is complete before the one that repeats it begins.
  rcases h with ⟨hs, ha, hf⟩ | ⟨hs, hi, hf⟩ | ⟨hp, hm, hf⟩
  · refine ⟨_, _, rfl, ha.spans_from _ List.mem_cons_self, ?_⟩
    rintro previous ⟨⟩
    obtain _ | _ | ⟨-, -, hms⟩ := hs
    exact (attributes_from hms _ hf.mem _ List.mem_cons_self).append_right _
  · refine ⟨_, _, rfl, hi.spans_from _ List.mem_cons_self, ?_⟩
    rintro previous ⟨⟩
    obtain _ | ⟨-, -, his⟩ := hs
    exact (interfaces_from his _ hf.mem _ List.mem_cons_self).append_right _
  · refine ⟨_, _, rfl, .token (by simp), ?_⟩
    rintro previous ⟨⟩
    exact hp.spans_from _ hf.mem _ List.mem_cons_self

/-- **A token is refused where it stands**, or at the modifier of the method that it opens. An
annotation that dangles stands before it. -/
theorem Draft.refusal_from {d : Draft} {us : List Token} (hr : Reads d us) (t : Token) :
    (d.refusal t).From (us ++ [t]) := by
  rcases refusal_cases d t with ⟨scope, pending, a, hw, -, he⟩ | ⟨ms, -, he⟩ |
    ⟨body, heading, m, name, span, rfl, hm, -, he⟩ | ⟨expected, he⟩
  · rw [he]
    obtain ⟨ts, vs, rfl, ha⟩ := endsInAnnotation_of_awaits hr hw
    refine ⟨ts ++ vs, [t], rfl, .token List.mem_cons_self, ?_⟩
    rintro previous ⟨⟩
    exact ha.span_from.append_right ts
  · rw [he]
    exact ParseError.from_last rfl rfl
  · -- The modifier stands two tokens before the last one, and the error refers to nothing else.
    rw [he]
    obtain ⟨modifier, hspan, ts, type, word, v, typeName, name', rfl, -, -, -⟩ :=
      endsInModified_of_reads hm hr
    refine ⟨[], _, rfl, ?_, ?_⟩
    · show m.span.From _
      rw [← hspan]
      exact .token (by simp)
    · rintro previous ⟨⟩
  · rw [he]
    exact ParseError.from_last rfl rfl

/-- **All spans of a parse error come from the tokens up to where parsing stops.** -/
theorem parse_error_from {ts : List Token} {e : ParseError} (h : parse ts = .error e) :
    ∃ us, us <+: Token.closed ts ∧ e.From us := by
  obtain ⟨us, t, vs, d, hsplit, hrun, hcase⟩ := Draft.exists_of_read_error h
  have hreads := Draft.reads_of_run hrun
  refine ⟨us ++ [t], ⟨vs, by rw [hsplit, List.append_assoc]; rfl⟩, ?_⟩
  rcases hcase with hclash | ⟨-, rfl⟩
  · exact (Draft.repeats_of_clash hreads hclash).from_tokens
  · exact Draft.refusal_from hreads t

/-- **An error that tokens in place give is shown where it stands**, behind what it refers to. -/
theorem ParseError.From.inPlace {source : String} {ts : List Token} {e : ParseError}
    (h : e.From ts) (hts : Token.InPlace source ts) : e.span.Faithful source ∧
      ∀ previous ∈ e.previous, previous.Faithful source ∧ previous.stop ≤ e.span.start := by
  obtain ⟨us, vs, rfl, hspan, hprevious⟩ := h
  refine ⟨(hspan.append_right us).inPlace hts |>.1, fun previous hp => ⟨?_, ?_⟩⟩
  · exact ((hprevious previous hp).append_left vs).inPlace hts |>.1
  · exact (hprevious previous hp).stop_le_start hspan hts

/-- A diagnostic points at the error first, and then at what the error refers to. -/
theorem ParseError.map_span_labels (e : ParseError) :
    e.labels.map Label.span = e.span :: e.previous.toList := by
  rcases e with _ | _ | _ | _ | _
  all_goals rfl

/-! ### Positions in a text -/

/-- A list with an end token holds all tokens up to the first one. -/
theorem Token.closed_isPrefix {ts : List Token} (h : ∃ t ∈ ts, t.isEnd = true) :
    closed ts <+: ts := by
  induction ts with
  | nil => simp at h
  | cons t ts ih =>
    by_cases ht : t.isEnd = true
    · rw [closed_end ht]
      exact ⟨ts, rfl⟩
    · rw [closed_cons (Bool.eq_false_iff.mpr ht)]
      have hlater : ∃ u ∈ ts, u.isEnd = true := by
        obtain ⟨u, hu, he⟩ := h
        rcases List.mem_cons.mp hu with rfl | hu
        · exact absurd he ht
        · exact ⟨u, hu, he⟩
      exact List.cons_prefix_cons.mpr ⟨rfl, ih hlater⟩

section Text
variable {source : String} {scan : Scan} (h : Scan.ofText source = .ok scan)
include h

theorem Scan.inPlace_tokens : Token.InPlace source scan.tokens :=
  ⟨faithful_tokens h, pairwise_tokens h⟩

theorem Scan.exists_end : ∃ t ∈ scan.tokens, t.isEnd = true := by
  obtain ⟨ls, -, rfl⟩ := ofText_eq_ok_iff.mp h
  rw [tokens_ofLexemes]
  exact ⟨_, List.mem_append_right _ List.mem_cons_self, rfl⟩

/-- The spans of the program that a scan spells. -/
theorem Scan.faithful_program {program : List Module} (hp : parse scan.tokens = .ok program) :
    ∀ m ∈ program, ∀ s ∈ m.spans, s.Faithful source := by
  obtain ⟨hrun, -⟩ := (Draft.read_eq_ok_iff Draft.distinct_empty).mp hp
  have hfrom := (Draft.run_eq_some_iff.mp hrun).spans_from
  have hsub : (Token.beforeEnd scan.tokens).Sublist scan.tokens := List.takeWhile_sublist _
  intro m hm s hs
  exact ((hfrom m hm s hs).inPlace ((inPlace_tokens h).sublist hsub)).1

/-- The spans of the error at which parsing a scan stops. -/
theorem Scan.faithful_parse_error {e : ParseError} (he : parse scan.tokens = .error e) :
    e.span.Faithful source ∧
      ∀ previous ∈ e.previous, previous.Faithful source ∧ previous.stop ≤ e.span.start := by
  obtain ⟨us, hfront, hfrom⟩ := parse_error_from he
  have hclosed := Token.closed_isPrefix (exists_end h)
  exact hfrom.inPlace ((inPlace_tokens h).sublist (hfront.trans hclosed).sublist)

/-- The places that the diagnostic of that error points at. -/
theorem Scan.faithful_labels {e : ParseError} (he : parse scan.tokens = .error e) :
    (∀ label ∈ e.labels, label.span.Faithful source) ∧
      e.labels.Pairwise fun l l' => l'.span.stop ≤ l.span.start := by
  obtain ⟨hspan, hprevious⟩ := faithful_parse_error h he
  have hspans := e.map_span_labels
  have hall : ∀ s ∈ e.labels.map Label.span, s.Faithful source := by
    rw [hspans]
    refine List.forall_mem_cons.mpr ⟨hspan, fun s hs => ?_⟩
    exact (hprevious s (Option.mem_toList.mp hs)).1
  have hpairwise : (e.labels.map Label.span).Pairwise fun s s' => s'.stop ≤ s.start := by
    rw [hspans]
    refine List.pairwise_cons.mpr ⟨fun s hs => ?_, ?_⟩
    · exact (hprevious s (Option.mem_toList.mp hs)).2
    · rcases e.previous with _ | previous
      · exact List.Pairwise.nil
      · exact List.pairwise_singleton _ previous
  exact ⟨fun label hl => hall _ (List.mem_map_of_mem hl), List.pairwise_map.mp hpairwise⟩

end Text

/-- A text that is no program cannot be scanned, or its tokens cannot be parsed. -/
theorem parseText_error_cases {source : String} {e : SyntaxError}
    (h : parseText source = .error e) :
    (∃ error, e = .lex error ∧ Scan.ofText source = .error error) ∨
      ∃ scan error, e = .parse error ∧ Scan.ofText source = .ok scan ∧
        parse scan.tokens = .error error := by
  unfold parseText at h
  rcases hs : Scan.ofText source with error | scan
  · rw [hs] at h
    cases h
    exact .inl ⟨error, rfl, rfl⟩
  · rw [hs] at h
    rcases hp : parse scan.tokens with error | program
    · simp only [hp] at h
      cases h
      exact .inr ⟨scan, error, rfl, rfl, hp⟩
    · simp only [hp] at h
      cases h

/-- **Everything that is told about a text is told where it stands.** The tokens and comments of a
scan, the error of one that fails, all that a program holds and the error of a text that is none
have spans that are faithful to the text. A place that a parse error refers to ends before the error
starts, and the places that a diagnostic points at are these two. -/
theorem positions_faithful (source : String) :
    (∀ e, Scan.ofText source = .error e → e.span.Faithful source) ∧
    (∀ scan, Scan.ofText source = .ok scan →
      (∀ t ∈ scan.tokens, t.span.Faithful source) ∧
        ∀ span ∈ scan.comments, span.Faithful source) ∧
    (∀ program, parseText source = .ok program →
      ∀ m ∈ program, ∀ s ∈ m.spans, s.Faithful source) ∧
    (∀ e, parseText source = .error (.parse e) → e.span.Faithful source ∧
      ∀ previous ∈ e.previous, previous.Faithful source ∧ previous.stop ≤ e.span.start) ∧
    ∀ e, parseText source = .error e →
      (∀ label ∈ e.diagnostic.labels, label.span.Faithful source) ∧
        e.diagnostic.labels.Pairwise fun l l' => l'.span.stop ≤ l.span.start := by
  refine ⟨fun e he => Scan.faithful_error he, fun scan hs => ?_, fun program hp => ?_,
    fun e he => ?_, fun e he => ?_⟩
  · exact ⟨Scan.faithful_tokens hs, Scan.faithful_comments hs⟩
  · obtain ⟨scan, hs, hp⟩ := parseText_eq_ok_iff.mp hp
    exact Scan.faithful_program hs hp
  · obtain ⟨error, hlex, -⟩ | ⟨scan, error, herror, hs, hp⟩ := parseText_error_cases he
    · cases hlex
    · cases herror
      exact Scan.faithful_parse_error hs hp
  · obtain ⟨error, rfl, hs⟩ | ⟨scan, error, rfl, hs, hp⟩ := parseText_error_cases he
    · -- A lexical error is shown at one place.
      refine ⟨List.forall_mem_singleton.mpr ?_, List.pairwise_singleton _ _⟩
      exact Scan.faithful_error hs
    · exact Scan.faithful_labels hs hp

/-- Behind a comment of seven bytes and six characters, an annotation on the second line dangles at
the end. -/
theorem positions_faithful_dangling :
    let source := "/*é */\n @x"
    let behind : Span := ⟨11, 11, 2, 4⟩
    let tag : Span := ⟨9, 11, 2, 2⟩
    parseText source = .error (.parse (.dangling ⟨.endOfInput, behind⟩ tag)) ∧
      behind.Faithful source ∧ tag.Faithful source ∧ tag.stop ≤ behind.start := by
  intro source behind tag
  have hparse : parseText source = .error (.parse (.dangling ⟨.endOfInput, behind⟩ tag)) := by
    decide +kernel
  obtain ⟨-, -, -, herror, -⟩ := positions_faithful source
  obtain ⟨hbehind, hprevious⟩ := herror _ hparse
  exact ⟨hparse, hbehind, hprevious tag rfl⟩

end Idl
