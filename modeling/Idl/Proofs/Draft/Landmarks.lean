import Idl.Proofs.Draft.Concatenation
import Idl.Proofs.Draft.Origins
import Idl.Proofs.Layout.Kinds
import Idl.Proofs.Lexeme.Slices
import Idl.Proofs.Model.Lookup

/-! # Landmarks

A program remembers where its annotations and the names of its declarations stand. These *landmarks*
are listed here in the order in which one meets them in the program: the annotations of a
declaration, its name, and then what it holds (`Module.landmarks`).

The rules of the grammar derive the program from its tokens in the same order. So the landmarks are
found along the tokens (`Landmark.Along`): an annotation is a run of tokens, a name is one token,
and the tokens between them are passed over. Every rule keeps this up, since what stands along some
tokens and what stands along the ones behind them stand along both (`Landmark.Along.append`). The
tokens of a text do not overlap, and a run of them is a part of the text that has these tokens by
itself.

* `Grammar.Program.along`: the landmarks of a program stand along its tokens.
* `Landmark.Along.pairwise`: they are in order and apart from each other.
* `landmarks_located`: in a text that was read, each of them marks off what it names. -/

namespace Idl

open Grammar

/-! ### The landmarks of a program -/

/-- **Something that a program remembers the place of:** an annotation, or the name of a
declaration. -/
inductive Landmark where
  | tag (a : Annotation)
  | name (word : String) (span : Span)
deriving DecidableEq, Repr

namespace Landmark

/-- The place of a landmark. -/
def span : Landmark → Span
  | .tag a => a.span
  | .name _ span => span

/-- **A landmark that marks off what it names.** At the place of a name is the name; what is at the
place of an annotation has the tokens of the annotation and no others. -/
def Located (source : String) : Landmark → Prop
  | .tag a => ∃ text scan, a.span.slice? source = some text ∧
      Scan.ofText text = .ok scan ∧ scan.tokens.map Token.kind = a.kinds ++ [.endOfInput]
  | .name word span => span.slice? source = some word

/-- The landmarks that introduce a declaration. -/
def heading (annotations : List Annotation) (word : String) (span : Span) : List Landmark :=
  annotations.map .tag ++ [.name word span]

end Landmark

/-- The landmark of a parameter. -/
def Parameter.landmark (p : Parameter) : Landmark := .name p.name p.span

/-- The landmarks of an attribute. -/
def Attribute.landmarks (a : Attribute) : List Landmark :=
  Landmark.heading a.annotations a.name a.span

/-- The landmarks of a method: its parameters follow its name. -/
def Method.landmarks (m : Method) : List Landmark :=
  Landmark.heading m.annotations m.name m.span ++ m.parameters.map Parameter.landmark

/-- The landmarks of a member. -/
def Member.landmarks : Member → List Landmark
  | .attribute a => a.landmarks
  | .method m => m.landmarks

/-- The landmarks of an interface: its members follow its name, in the order of their
declaration. -/
def Interface.landmarks (i : Interface) : List Landmark :=
  Landmark.heading i.annotations i.name i.span ++ i.members.flatMap Member.landmarks

/-- **The landmarks of a module** in the order of the text. -/
def Module.landmarks (m : Module) : List Landmark :=
  Landmark.heading m.annotations m.name m.span ++ m.interfaces.flatMap Interface.landmarks

/-! ### Landmarks along tokens -/

namespace Landmark

/-- The tokens that a landmark is written with. -/
inductive Written : List Token → Landmark → Prop where
  | tag {ts : List Token} {a : Annotation} (h : AnnotationDecl ts a) :
      Written ts (.tag a)
  | name {t : Token} {word : String} (h : t.kind = .identifier word) :
      Written [t] (.name word t.span)

/-- **Landmarks that are met along some tokens**, one behind the other, while other tokens are
passed over. -/
inductive Along : List Token → List Landmark → Prop where
  | nil : Along [] []
  | skip {ts : List Token} {xs : List Landmark} (t : Token) (later : Along ts xs) :
      Along (t :: ts) xs
  | cons {ts us : List Token} {x : Landmark} {xs : List Landmark} (first : Written ts x)
      (later : Along us xs) : Along (ts ++ us) (x :: xs)

theorem along_skipped (ts : List Token) : Along ts [] := by
  induction ts with
  | nil => exact .nil
  | cons t ts ih => exact .skip t ih

theorem along_name {t : Token} {word : String} (h : t.kind = .identifier word) :
    Along [t] [.name word t.span] :=
  .cons (.name h) .nil

/-- **What stands along some tokens and what stands along the ones behind them.** -/
theorem Along.append {ts us : List Token} {xs ys : List Landmark} (h : Along ts xs)
    (h' : Along us ys) : Along (ts ++ us) (xs ++ ys) := by
  induction h with
  | nil => exact h'
  | skip t _ ih => exact .skip t ih
  | cons first _ ih =>
    rw [List.append_assoc]
    exact .cons first ih

/-- Tokens behind the last landmark are passed over. -/
theorem Along.append_skipped {ts : List Token} {xs : List Landmark} (h : Along ts xs)
    (us : List Token) : Along (ts ++ us) xs := by
  have hall := h.append (along_skipped us)
  rwa [List.append_nil] at hall

theorem along_many {α : Type} {piece : List Token → α → Prop} {landmarks : α → List Landmark}
    {ts : List Token} {as : List α} (h : Many piece ts as)
    (hpiece : ∀ us a, piece us a → Along us (landmarks a)) : Along ts (as.flatMap landmarks) := by
  induction h with
  | nil => exact .nil
  | cons first _ ih => exact (hpiece _ _ first).append ih

theorem along_annotations {ts : List Token} {as : List Annotation}
    (h : Many AnnotationDecl ts as) : Along ts (as.map .tag) := by
  induction h with
  | nil => exact .nil
  | cons first _ ih => exact .cons (.tag first) ih

/-- A declaration is introduced by its annotations, some words, and its name. -/
theorem along_heading {ts : List Token} {annotations : List Annotation}
    (ha : Many AnnotationDecl ts annotations) (words : List Token) {label : Token} {word : String}
    (hn : label.kind = .identifier word) :
    Along (ts ++ words ++ [label]) (heading annotations word label.span) :=
  ((along_annotations ha).append_skipped words).append (along_name hn)

end Landmark

/-! ### The rules of the grammar -/

namespace Grammar

open Landmark

theorem ParameterDecl.along {ts : List Token} {p : Parameter} (h : ParameterDecl ts p) :
    Along ts [p.landmark] := by
  obtain ⟨-, hn⟩ := h
  exact .skip _ (along_name hn)

theorem ParameterList.along {ts : List Token} {ps : List Parameter} (h : ParameterList ts ps) :
    Along ts (ps.map Parameter.landmark) := by
  induction h with
  | one hp => exact hp.along
  | @cons ts us comma p ps hp _ _ ih => exact hp.along.append (.skip comma ih)

theorem Parameters.along {ts : List Token} {ps : List Parameter} (h : Parameters ts ps) :
    Along ts (ps.map Parameter.landmark) := by
  rcases h with _ | hl
  · exact .nil
  · exact hl.along

theorem MemberStart.along {ts : List Token} {h : MemberHeading} (hs : MemberStart ts h)
    {label : Token} {word : String} (hn : label.kind = .identifier word) :
    Along (ts ++ [label]) (heading h.annotations word label.span) := by
  rcases hs with ⟨ha, -⟩ | ⟨ha, -, -⟩
  · exact along_heading ha _ hn
  · exact along_heading ha _ hn

theorem AttributeDecl.along {ts : List Token} {a : Attribute} (h : AttributeDecl ts a) :
    Along ts a.landmarks := by
  obtain @⟨ts, word, semicolon, heading, name, hs, hn, -⟩ := h
  have hall := (hs.along hn).append_skipped [semicolon]
  rwa [List.append_assoc] at hall

theorem MethodDecl.along {ts : List Token} {m : Method} (h : MethodDecl ts m) :
    Along ts m.landmarks := by
  obtain @⟨ts, us, closing, semicolon, m, ps, hstart, hp, -, -⟩ := h
  obtain @⟨ts, word, opening, heading, name, hs, -, hn, -⟩ := hstart
  have hfront := (hs.along hn).append_skipped [opening]
  rw [List.append_assoc] at hfront
  exact (hfront.append hp.along).append_skipped _

theorem MemberDecl.along {ts : List Token} {m : Member} (h : MemberDecl ts m) :
    Along ts m.landmarks := by
  rcases h with ha | hm
  · exact ha.along
  · exact hm.along

theorem BlockStart.along {word : Keyword} {ts : List Token} {h : Heading}
    (hs : BlockStart word ts h) : Along ts (heading h.annotations h.name h.span) := by
  obtain @⟨ts, keyword, label, brace, annotations, name, ha, -, hn, -⟩ := hs
  have hall := (along_heading ha [keyword] hn).append_skipped [brace]
  rwa [List.append_assoc, List.append_assoc] at hall

theorem InterfaceDecl.along {ts : List Token} {i : Interface} (h : InterfaceDecl ts i) :
    Along ts i.landmarks := by
  obtain ⟨hs, hm, -⟩ := h
  have hmembers := along_many hm fun _ _ => MemberDecl.along
  unfold Interface.landmarks
  rw [Interface.members_ofMembers]
  exact (hs.along.append hmembers).append_skipped _

theorem ModuleDecl.along {ts : List Token} {m : Module} (h : ModuleDecl ts m) :
    Along ts m.landmarks := by
  obtain ⟨hs, hi, -⟩ := h
  have hinterfaces := along_many hi fun _ _ => InterfaceDecl.along
  exact (hs.along.append hinterfaces).append_skipped _

/-- **The landmarks of a program stand along its tokens.** -/
theorem Program.along {ts : List Token} {program : List Module} (h : Program ts program) :
    Along ts (program.flatMap Module.landmarks) :=
  along_many h fun _ _ => ModuleDecl.along

end Grammar

/-! ### Landmarks in a text -/

/-- A span that comes from tokens that are not empty is not empty. -/
theorem Span.From.start_lt_stop {ts : List Token} {s : Span} (h : s.From ts)
    (hne : ∀ t ∈ ts, t.span.start < t.span.stop) : s.start < s.stop := by
  rcases h with ht | @⟨t, u, hrange⟩
  · exact hne _ ht
  · have ht := hne t (hrange.mem List.mem_cons_self)
    rw [start_merge, stop_merge]
    omega

theorem Grammar.Literal.eq_kind {kind : TokenKind} {value : AnnotationValue}
    (h : Literal kind value) : kind = value.kind := by
  rcases h with _ | _ | _
  all_goals rfl

/-- **An annotation spans a run of tokens**, and these are the ones that it is written with. -/
theorem Grammar.AnnotationDecl.exists_range {ts : List Token} {a : Annotation}
    (h : AnnotationDecl ts a) : ∃ t mid u, ts = t :: (mid ++ [u]) ∧
      a.span = t.span.merge u.span ∧ ts.map Token.kind = a.kinds := by
  rcases h with @⟨sign, word, name, hs, hn⟩ |
    @⟨sign, word, opening, literal, closing, name, value, hs, hn, ho, hv, hc⟩
  · refine ⟨sign, [], word, rfl, rfl, ?_⟩
    simp only [List.map_cons, List.map_nil, hs, hn]
    rfl
  · refine ⟨sign, [word, opening, literal], closing, rfl, rfl, ?_⟩
    simp only [List.map_cons, List.map_nil, hs, hn, ho, hc, hv.eq_kind]
    rfl

namespace Landmark

variable {source : String}

theorem Written.span_from {ts : List Token} {x : Landmark} (h : Written ts x) :
    x.span.From ts := by
  rcases h with ha | hn
  · exact ha.span_from
  · exact .token List.mem_cons_self

/-- A landmark is written in a run of the tokens along which it stands. -/
theorem Along.exists_written {ts : List Token} {xs : List Landmark} (h : Along ts xs) :
    ∀ x ∈ xs, ∃ before us behind, ts = before ++ us ++ behind ∧ Written us x := by
  induction h with
  | nil => simp
  | skip t _ ih =>
    intro x hx
    obtain ⟨before, us, behind, rfl, hw⟩ := ih x hx
    exact ⟨t :: before, us, behind, rfl, hw⟩
  | @cons ts us y xs first _ ih =>
    intro x hx
    rcases List.mem_cons.mp hx with rfl | hx
    · exact ⟨[], ts, us, rfl, first⟩
    · obtain ⟨before, vs, behind, rfl, hw⟩ := ih x hx
      exact ⟨ts ++ before, vs, behind, by simp, hw⟩

theorem Along.span_from {ts : List Token} {xs : List Landmark} (h : Along ts xs) :
    ∀ x ∈ xs, x.span.From ts := by
  intro x hx
  obtain ⟨before, us, behind, rfl, hw⟩ := h.exists_written x hx
  exact (hw.span_from.append_right before).append_left behind

/-- **Landmarks along tokens in place are in order and apart from each other.** -/
theorem Along.pairwise {ts : List Token} {xs : List Landmark} (h : Along ts xs)
    (hts : Token.InPlace source ts) (hne : ∀ t ∈ ts, t.span.start < t.span.stop) :
    xs.Pairwise fun x y => x.span.start < y.span.start ∧ x.span.stop ≤ y.span.start := by
  induction h with
  | nil => exact .nil
  | skip t _ ih =>
    exact ih (hts.sublist (List.sublist_cons_self t _)) (List.forall_mem_cons.mp hne).2
  | @cons ts us x xs first later ih =>
    obtain ⟨hfirst, hlater⟩ := List.forall_mem_append.mp hne
    refine .cons (fun y hy => ?_) (ih (hts.sublist (List.sublist_append_right ts us)) hlater)
    have hnonempty := first.span_from.start_lt_stop hfirst
    have hapart := first.span_from.stop_le_start (later.span_from y hy) hts
    exact ⟨by omega, hapart⟩

section Text
variable {scan : Scan} (h : Scan.ofText source = .ok scan)
include h

/-- **What is written in a run of the tokens of a text is located in the text.** -/
theorem Written.located {before us behind : List Token} {x : Landmark} (hw : Written us x)
    (hts : scan.tokens.dropLast = before ++ us ++ behind) : x.Located source := by
  rcases hw with ha | @⟨t, word, hn⟩
  · obtain ⟨t, mid, u, rfl, hspan, hkinds⟩ := ha.exists_range
    obtain ⟨text, inner, hslice, hscan, htokens⟩ := Scan.exists_slice_range h hts
    rw [← hspan] at hslice
    rw [hkinds] at htokens
    exact ⟨text, inner, hslice, hscan, htokens⟩
  · have hmem : t ∈ scan.tokens.dropLast := by simp [hts]
    obtain ⟨text, hslice, hs⟩ := Scan.exists_slice_token h hmem
    rw [hn] at hs
    -- An identifier is spelled by its own characters.
    cases hs
    exact hslice

end Text

end Landmark

section Text
variable {source : String} {scan : Scan} (h : Scan.ofText source = .ok scan)
include h

/-- No token of a text is empty but the last. -/
theorem Scan.start_lt_stop_of_mem : ∀ t ∈ scan.tokens.dropLast, t.span.start < t.span.stop := by
  intro t ht
  obtain ⟨ls, hl, rfl⟩ := ofText_eq_ok_iff.mp h
  obtain ⟨text, ⟨before, behind, -, hspan⟩, hs⟩ := (holds_of_longestCut hl).tokens t ht
  rw [hspan, Position.after_append]
  exact Position.offset_lt_after (Lexeme.spelled_ne_nil hs)

/-- Only the last token of a text marks its end. -/
theorem Scan.beforeEnd_tokens : Token.beforeEnd scan.tokens = scan.tokens.dropLast := by
  obtain ⟨t, ht, htokens⟩ := tokens_eq_of_ofText h
  have hinner : ∀ u ∈ scan.tokens.dropLast, (!u.isEnd) = true := by
    intro u hu
    rw [isEnd_of_mem_dropLast h hu]
    rfl
  rw [Token.beforeEnd, htokens, List.dropLast_concat, List.takeWhile_append_of_pos hinner]
  simp [ht]

theorem Scan.along_of_parse {program : List Module} (hp : parse scan.tokens = .ok program) :
    Landmark.Along scan.tokens.dropLast (program.flatMap Module.landmarks) := by
  obtain ⟨hrun, -⟩ := (Draft.read_eq_ok_iff Draft.distinct_empty).mp hp
  rw [beforeEnd_tokens h] at hrun
  exact (Draft.run_eq_some_iff.mp hrun).along

end Text

theorem Interface.mem_landmarks {i : Interface} {member : Member} (hm : member ∈ i.members)
    {x : Landmark} (hx : x ∈ member.landmarks) : x ∈ i.landmarks :=
  List.mem_append_right _ (List.mem_flatMap.mpr ⟨member, hm, hx⟩)

theorem Module.mem_landmarks {m : Module} {i : Interface} (hi : i ∈ m.interfaces) {x : Landmark}
    (hx : x ∈ i.landmarks) : x ∈ m.landmarks :=
  List.mem_append_right _ (List.mem_flatMap.mpr ⟨i, hi, hx⟩)

/-- **What a program remembers the place of stands there, in the order of the text.** In a program
that was read, the place of a module, an interface, an attribute, a method or a parameter holds its
name, and the place of an annotation holds the tokens of the annotation. Along the program the
places start one behind the other, and each ends before the next one starts. -/
theorem landmarks_located {source : String} {program : List Module}
    (h : parseText source = .ok program) :
    (∀ m ∈ program, (∀ x ∈ m.landmarks, x.Located source) ∧
      ∀ i ∈ m.interfaces, (∀ a ∈ i.attributes, ∀ x ∈ a.landmarks, x.Located source) ∧
        ∀ f ∈ i.methods, ∀ x ∈ f.landmarks, x.Located source) ∧
    ((program.flatMap Module.landmarks).map Landmark.span).Pairwise fun s s' =>
      s.start < s'.start ∧ s.stop ≤ s'.start := by
  obtain ⟨scan, hscan, hparse⟩ := parseText_eq_ok_iff.mp h
  have halong := Scan.along_of_parse hscan hparse
  have hlocated : ∀ m ∈ program, ∀ x ∈ m.landmarks, x.Located source := by
    intro m hm x hx
    obtain ⟨before, us, behind, hts, hw⟩ :=
      halong.exists_written x (List.mem_flatMap.mpr ⟨m, hm, hx⟩)
    exact hw.located hscan hts
  refine ⟨fun m hm => ⟨hlocated m hm, fun i hi => ?_⟩, List.pairwise_map.mpr ?_⟩
  · -- The attributes and the methods of an interface are among its members.
    have hbuilt := (((wellFormed_of_parseText h).modules m hm).interfaces i hi).built
    obtain ⟨hperm, -, -⟩ := hbuilt.perm_members
    have hmember : ∀ member ∈ i.members, ∀ x ∈ member.landmarks, x.Located source := by
      intro member hmember x hx
      exact hlocated m hm x (Module.mem_landmarks hi (Interface.mem_landmarks hmember hx))
    refine ⟨fun a ha => hmember (.attribute a) ?_, fun f hf => hmember (.method f) ?_⟩
    · exact hperm.mem_iff.mpr (List.mem_append_left _ (List.mem_map_of_mem ha))
    · exact hperm.mem_iff.mpr (List.mem_append_right _ (List.mem_map_of_mem hf))
  · have hplace := (Scan.inPlace_tokens hscan).sublist (List.dropLast_sublist _)
    exact halong.pairwise hplace (Scan.start_lt_stop_of_mem hscan)

/-- Behind a comment of six bytes and five characters, an annotation with a blank in it stands
before its attribute. -/
theorem landmarks_located_blank :
    let source := "/*é*/module M\x7binterface I\x7b@ a(1) t x;\x7d\x7d"
    let a : Annotation := ⟨"a", some (.number "1"), ⟨27, 33, 1, 27⟩⟩
    let x : Attribute := ⟨"x", "t", .readWrite, [a], ⟨36, 37, 1, 36⟩⟩
    let i : Interface := ⟨"I", [x], [], [.attribute], [], ⟨25, 26, 1, 25⟩⟩
    let m : Module := ⟨"M", [i], [], ⟨13, 14, 1, 13⟩⟩
    parseText source = .ok [m] ∧ m.span.slice? source = some "M" ∧
      i.span.slice? source = some "I" ∧ x.span.slice? source = some "x" ∧
      (Landmark.tag a).Located source ∧
      [m.span, i.span, a.span, x.span].Pairwise fun s s' =>
        s.start < s'.start ∧ s.stop ≤ s'.start := by
  intro source a x i m
  have hparse : parseText source = .ok [m] := by decide +kernel
  obtain ⟨hmodules, hpairwise⟩ := landmarks_located hparse
  obtain ⟨hlocated, hinterfaces⟩ := hmodules m List.mem_cons_self
  obtain ⟨hattributes, -⟩ := hinterfaces i List.mem_cons_self
  have hx := hattributes x List.mem_cons_self
  refine ⟨hparse, hlocated (.name "M" m.span) ?_, hlocated (.name "I" i.span) ?_,
    hx (.name "x" x.span) ?_, hx (.tag a) ?_, hpairwise⟩
  all_goals decide

end Idl
