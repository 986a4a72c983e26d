import Idl.Proofs.Draft.Decorated
import Idl.Proofs.Draft.Repeats
import Mathlib.Data.List.TakeWhile

/-! # What a program does not depend on

Two parts of a list of tokens have no say in what is read. Nothing behind the first end token is
read at all. And annotations add to the declaration that they stand in front of, and to nothing
else: they can be deleted, and more can be put in front of any declaration.

Where an annotation can be put is said along the rules: between two annotations of one declaration
(`Front`), which is one of several in its block (`Among`). Such a place comes with the program that
each list of annotations makes there.

* `parse_eq_of_same_front`: tokens that agree up to the first end token are parsed alike.
* `Token.withoutAnnotations`: a list of tokens less all annotations, found by the at signs alone;
  `exists_bare_program`: it derives the program without annotations.
* `program_of_gap`: annotations can be put at every place; `exists_gap`: every declaration has a
  place between any two of its annotations, before the first and behind the last.
* `parse_annotation_frame`: deleting and adding annotations, for every list that is parsed. -/

namespace Idl

open Grammar

/-! ### The end of the input -/

namespace Token

theorem closed_append_end {us : List Token} (hus : ∀ t ∈ us, t.isEnd = false) {e : Token}
    (he : e.isEnd = true) (vs : List Token) : closed (us ++ e :: vs) = us ++ [e] := by
  induction us with
  | nil => exact closed_end he vs
  | cons u us ih =>
    have hu : u.isEnd = false := hus u (by simp)
    have htail : ∀ t ∈ us, t.isEnd = false := fun t ht => hus t (by simp [ht])
    rw [List.cons_append, closed_cons hu, ih htail, List.cons_append]

theorem closed_of_no_end {us : List Token} (hus : ∀ t ∈ us, t.isEnd = false) :
    closed us = us ++ [implicitEnd] := by
  induction us with
  | nil => rfl
  | cons u us ih =>
    have hu : u.isEnd = false := hus u (by simp)
    have htail : ∀ t ∈ us, t.isEnd = false := fun t ht => hus t (by simp [ht])
    rw [closed_cons hu, ih htail, List.cons_append]

end Token

/-- **Tokens that agree up to the first end token are parsed alike**, errors and spans included, and
a list without an end is parsed as if one stood behind it, at the start of the text. -/
theorem parse_eq_of_same_front {us : List Token} (hus : ∀ t ∈ us, t.isEnd = false) :
    (∀ e : Token, e.isEnd = true → ∀ vs vs', parse (us ++ e :: vs) = parse (us ++ e :: vs')) ∧
      ∀ vs, parse us = parse (us ++ [⟨.endOfInput, ⟨0, 0, 1, 1⟩⟩] ++ vs) := by
  have hclosed : ∀ ts ts', Token.closed ts = Token.closed ts' → parse ts = parse ts' := by
    intro ts ts' h
    rw [parse, parse, ← Draft.read_closed, h, Draft.read_closed]
  constructor
  · intro e he vs vs'
    apply hclosed
    rw [Token.closed_append_end hus he, Token.closed_append_end hus he]
  · intro vs
    apply hclosed
    rw [List.append_assoc, List.singleton_append, Token.closed_of_no_end hus,
      Token.closed_append_end hus rfl]
    rfl

/-- An open module is refused at the first end, whatever stands behind it. -/
theorem parse_eq_of_same_front_open :
    let us : List Token := [⟨.keyword .module, ⟨0, 6, 1, 1⟩⟩, ⟨.identifier "M", ⟨7, 8, 1, 8⟩⟩]
    let e : Token := ⟨.endOfInput, ⟨8, 8, 1, 9⟩⟩
    let vs : List Token := [⟨.punctuation .openBrace, ⟨9, 10, 1, 10⟩⟩]
    parse (us ++ e :: vs) = .error (.unexpectedToken .openBrace e) ∧
      parse (us ++ e :: vs) = parse (us ++ e :: []) ∧
      parse us = .error (.unexpectedToken .openBrace .implicitEnd) ∧
      parse us = parse (us ++ [⟨.endOfInput, ⟨0, 0, 1, 1⟩⟩] ++ vs) := by
  intro us e vs
  have hus : ∀ t ∈ us, t.isEnd = false := by decide
  have hfront := parse_eq_of_same_front hus
  exact ⟨rfl, hfront.1 e rfl vs [], rfl, hfront.2 vs⟩

/-! ### Deleting all annotations -/

namespace Token

/-- How many tokens an annotation has behind its sign: its name, and a literal in parentheses. -/
def annotationLength (ts : List Token) : Nat :=
  if ts[1]?.any fun t => t.isMark .openParen then 4 else 1

/-- The tokens behind the next few, without the annotations up to the first end token. -/
def withoutAnnotationsAfter : Nat → List Token → List Token
  | _, [] => []
  | n + 1, _ :: ts => withoutAnnotationsAfter n ts
  | 0, t :: ts =>
    if t.isEnd then t :: ts
    else if t.isMark .atSign then withoutAnnotationsAfter (annotationLength ts) ts
    else t :: withoutAnnotationsAfter 0 ts

/-- **A list of tokens without its annotations**, each an at sign with the tokens that belong to it.
Nothing behind the first end token is an annotation of the program. -/
def withoutAnnotations (ts : List Token) : List Token := withoutAnnotationsAfter 0 ts

theorem withoutAnnotations_plain {t : Token} (h : Plain t) (ts : List Token) :
    withoutAnnotations (t :: ts) = t :: withoutAnnotations ts := by
  obtain ⟨he, ha⟩ := h
  simp only [withoutAnnotations, withoutAnnotationsAfter, he, ha, Bool.false_eq_true, if_false]

theorem withoutAnnotations_of_beforeEnd {ts : List Token} (h : beforeEnd ts = []) :
    withoutAnnotations ts = ts := by
  cases ts with
  | nil => rfl
  | cons t ts =>
    cases he : t.isEnd with
    | true => simp only [withoutAnnotations, withoutAnnotationsAfter, he, if_true]
    | false =>
      rw [Draft.beforeEnd_cons he] at h
      cases h

/-- An annotation is deleted if no parenthesis behind it goes on with it. -/
theorem withoutAnnotations_annotation {us : List Token} {a : Annotation}
    (h : AnnotationDecl us a) {t : Token} (ht : t.isMark .openParen = false) (ts : List Token) :
    withoutAnnotations (us ++ t :: ts) = withoutAnnotations (t :: ts) := by
  cases h with
  | bare hs hn =>
    simp [withoutAnnotations, withoutAnnotationsAfter, annotationLength, isEnd, hs, ht]
  | valued hs hn ho hv hc =>
    simp [withoutAnnotations, withoutAnnotationsAfter, annotationLength, isEnd, hs, ho]

theorem withoutAnnotations_run {run : List Token} {as : List Annotation}
    (h : Many AnnotationDecl run as) {t : Token} (ht : t.isMark .openParen = false)
    (ts : List Token) : withoutAnnotations (run ++ t :: ts) = withoutAnnotations (t :: ts) := by
  induction h with
  | nil => rfl
  | @cons us vs a as first later ih =>
    -- Behind the first annotation stands the sign of the next one, or the token behind the run.
    obtain ⟨u, rest, hrest, hu⟩ : ∃ u rest, vs ++ t :: ts = u :: rest ∧
        u.isMark .openParen = false := by
      cases later with
      | nil => exact ⟨t, ts, rfl, ht⟩
      | cons next _ => cases next with
        | bare hs hn => exact ⟨_, _, rfl, by simp [isMark, hs]⟩
        | valued hs hn ho hv hc => exact ⟨_, _, rfl, by simp [isMark, hs]⟩
    rw [List.append_assoc, hrest, withoutAnnotations_annotation first hu, ← hrest, ih]

/-- Some tokens are left of others when the annotations are deleted, whatever stands behind. -/
def Strips (ts us : List Token) : Prop :=
  ∀ rest, withoutAnnotations (ts ++ rest) = us ++ withoutAnnotations rest

theorem Strips.append {ts us ts' us' : List Token} (h : Strips ts us) (h' : Strips ts' us') :
    Strips (ts ++ ts') (us ++ us') := by
  intro rest
  rw [List.append_assoc, h, h', List.append_assoc]

theorem strips_plain {ts : List Token} (h : ∀ t ∈ ts, Plain t) : Strips ts ts := by
  intro rest
  induction ts with
  | nil => rfl
  | cons t ts ih =>
    have ht : Plain t := h t (by simp)
    have hts : ∀ u ∈ ts, Plain u := fun u hu => h u (by simp [hu])
    rw [List.cons_append, withoutAnnotations_plain ht, ih hts, List.cons_append]

theorem strips_fronted {as : List Annotation} {rule : List Token → Prop} {ts : List Token}
    (h : Fronted as rule ts) : ∃ us, rule us ∧ Strips ts us := by
  obtain ⟨run, t, core, rfl, ha, hcore, hopen, hplain⟩ := h
  refine ⟨t :: core, hcore, fun rest => ?_⟩
  rw [List.append_assoc, List.cons_append, withoutAnnotations_run ha hopen, ← List.cons_append,
    strips_plain hplain]

theorem strips_many {α : Type} {piece : List Token → α → Prop} {bare : α → α}
    (hpiece : ∀ {ts a}, piece ts a → ∃ us, piece us (bare a) ∧ Strips ts us) {ts : List Token}
    {as : List α} (h : Many piece ts as) : ∃ us, Many piece us (as.map bare) ∧ Strips ts us := by
  induction h with
  | nil => exact ⟨[], .nil, fun rest => rfl⟩
  | cons first _ ih =>
    obtain ⟨us, hu, hus⟩ := hpiece first
    obtain ⟨vs, hv, hvs⟩ := ih
    exact ⟨us ++ vs, .cons hu hv, hus.append hvs⟩

theorem strips_member {ts : List Token} {m : Member} (h : MemberDecl ts m) :
    ∃ us, MemberDecl us m.bare ∧ Strips ts us := by
  obtain ⟨as, has⟩ := m.exists_decorate
  rw [← has] at h
  rw [← Member.decorate_nil]
  exact strips_fronted h.fronted

theorem strips_closeBrace {brace : Token} (h : brace.kind = .punctuation .closeBrace) :
    Strips [brace] [brace] :=
  strips_plain (by simp [plain_of_kind h])

theorem strips_interface {ts : List Token} {i : Interface} (h : InterfaceDecl ts i) :
    ∃ us, InterfaceDecl us i.bare ∧ Strips ts us := by
  obtain @⟨ts, us, brace, heading, members, hs, hm, hb⟩ := h
  obtain ⟨ts', hs', hts⟩ := strips_fronted hs.fronted
  obtain ⟨us', hm', hus⟩ := strips_many strips_member hm
  refine ⟨ts' ++ us' ++ [brace], ?_, (hts.append hus).append (strips_closeBrace hb)⟩
  rw [Interface.bare_ofMembers]
  exact .mk hs' hm' hb

theorem strips_module {ts : List Token} {m : Module} (h : ModuleDecl ts m) :
    ∃ us, ModuleDecl us m.bare ∧ Strips ts us := by
  obtain @⟨ts, us, brace, heading, interfaces, hs, hi, hb⟩ := h
  obtain ⟨ts', hs', hts⟩ := strips_fronted hs.fronted
  obtain ⟨us', hi', hus⟩ := strips_many strips_interface hi
  exact ⟨ts' ++ us' ++ [brace], .mk hs' hi' hb, (hts.append hus).append (strips_closeBrace hb)⟩

end Token

/-- **What is left of a program without its annotations** is the program without annotations. -/
theorem exists_bare_program {ts : List Token} {program : List Module} (h : Program ts program) :
    ∃ us, Program us (program.map Module.bare) ∧ Token.Strips ts us :=
  Token.strips_many Token.strips_module h

/-! ### Adding annotations -/

namespace Grammar

/-- A place between the annotations of a declaration, and the declaration that annotations put there
make. -/
inductive Front {α : Type} (piece : List Token → α → Prop) (decorate : α → List Annotation → α) :
    List Token → List Token → (List Annotation → α) → Prop where
  | mk {us vs core : List Token} {as bs : List Annotation} {a : α}
      (ha : Many AnnotationDecl us as) (hb : Many AnnotationDecl vs bs)
      (hc : piece core (decorate a [])) :
      Front piece decorate us (vs ++ core) fun cs => decorate a (as ++ cs ++ bs)

/-- A place in one of several pieces. -/
inductive Among {α : Type} (piece : List Token → α → Prop)
    (gap : List Token → List Token → (List Annotation → α) → Prop) :
    List Token → List Token → (List Annotation → List α) → Prop where
  | mk {ts us vs ws : List Token} {as bs : List α} {put : List Annotation → α}
      (before : Many piece ts as) (inside : gap us vs put) (behind : Many piece ws bs) :
      Among piece gap (ts ++ us) (vs ++ ws) fun cs => as ++ put cs :: bs

/-- A place in front of a member. -/
def MemberGap : List Token → List Token → (List Annotation → Member) → Prop :=
  Front MemberDecl Member.decorate

/-- A place in front of an interface or of one of its members. -/
inductive InterfaceGap : List Token → List Token → (List Annotation → Interface) → Prop where
  | own {us vs : List Token} {put : List Annotation → Interface}
      (h : Front InterfaceDecl Interface.decorate us vs put) : InterfaceGap us vs put
  | member {ts us vs : List Token} {brace : Token} {h : Heading}
      {put : List Annotation → List Member} (hs : BlockStart .interface ts h)
      (inside : Among MemberDecl MemberGap us vs put)
      (hb : brace.kind = .punctuation .closeBrace) :
      InterfaceGap (ts ++ us) (vs ++ [brace]) fun cs =>
        .ofMembers h.name (put cs) h.annotations h.span

/-- A place in front of a module or of a declaration in it. -/
inductive ModuleGap : List Token → List Token → (List Annotation → Module) → Prop where
  | own {us vs : List Token} {put : List Annotation → Module}
      (h : Front ModuleDecl Module.decorate us vs put) : ModuleGap us vs put
  | interface {ts us vs : List Token} {brace : Token} {h : Heading}
      {put : List Annotation → List Interface} (hs : BlockStart .module ts h)
      (inside : Among InterfaceDecl InterfaceGap us vs put)
      (hb : brace.kind = .punctuation .closeBrace) :
      ModuleGap (ts ++ us) (vs ++ [brace]) fun cs => ⟨h.name, put cs, h.annotations, h.span⟩

/-- **A place in a program where an annotation can stand**: the tokens before it and behind it, and
the program that annotations put there make. -/
def Gap : List Token → List Token → (List Annotation → List Module) → Prop :=
  Among ModuleDecl ModuleGap

section Gaps
variable {α : Type} {piece : List Token → α → Prop} {decorate : α → List Annotation → α}
  {gap : List Token → List Token → (List Annotation → α) → Prop} {us vs : List Token}
  {ws : List Token} {as : List Annotation}

theorem Front.derives {put : List Annotation → α} (h : Front piece decorate us vs put)
    (hpiece : ∀ {core run a as}, piece core (decorate a []) → Many AnnotationDecl run as →
      piece (run ++ core) (decorate a as))
    (hw : Many AnnotationDecl ws as) : piece (us ++ ws ++ vs) (put as) := by
  obtain ⟨ha, hb, hc⟩ := h
  rw [← List.append_assoc]
  exact hpiece hc ((ha.append hw).append hb)

theorem Among.derives {put : List Annotation → List α} (h : Among piece gap us vs put)
    (hpiece : ∀ {us vs put}, gap us vs put → piece (us ++ ws ++ vs) (put as)) :
    Many piece (us ++ ws ++ vs) (put as) := by
  obtain @⟨ts, us, vs, ws', as', bs, put, before, inside, behind⟩ := h
  have hall := before.append (.cons (hpiece inside) behind)
  simpa [List.append_assoc] using hall

theorem interface_of_gap {put : List Annotation → Interface} (h : InterfaceGap us vs put)
    (hw : Many AnnotationDecl ws as) : InterfaceDecl (us ++ ws ++ vs) (put as) := by
  obtain h | @⟨ts, us, vs, brace, heading, put, hs, inside, hb⟩ := h
  · exact h.derives InterfaceDecl.annotated hw
  · have hm := inside.derives fun h => Front.derives h MemberDecl.annotated hw
    simpa [List.append_assoc] using InterfaceDecl.mk hs hm hb

theorem module_of_gap {put : List Annotation → Module} (h : ModuleGap us vs put)
    (hw : Many AnnotationDecl ws as) : ModuleDecl (us ++ ws ++ vs) (put as) := by
  obtain h | @⟨ts, us, vs, brace, heading, put, hs, inside, hb⟩ := h
  · exact h.derives ModuleDecl.annotated hw
  · have hi := inside.derives fun h => interface_of_gap h hw
    simpa [List.append_assoc] using ModuleDecl.mk hs hi hb

/-- **Annotations can be put at every place**, and make the program that belongs to it. -/
theorem program_of_gap {put : List Annotation → List Module} (h : Gap us vs put)
    (hw : Many AnnotationDecl ws as) : Program (us ++ ws ++ vs) (put as) :=
  Among.derives h fun h => module_of_gap h hw

end Gaps

/-! ### Annotations change nothing else -/

theorem InterfaceGap.bare_eq {us vs : List Token} {put : List Annotation → Interface}
    (h : InterfaceGap us vs put) (as bs : List Annotation) : (put as).bare = (put bs).bare := by
  obtain ⟨_, _, _⟩ | ⟨_, @⟨_, _, _, _, _, _, _, _, ⟨_, _, _⟩, _⟩, _⟩ := h
  · rfl
  · simp

theorem ModuleGap.bare_eq {us vs : List Token} {put : List Annotation → Module}
    (h : ModuleGap us vs put) (as bs : List Annotation) : (put as).bare = (put bs).bare := by
  obtain ⟨_, _, _⟩ | ⟨_, @⟨_, _, _, _, _, _, _, _, inside, _⟩, _⟩ := h
  · rfl
  · simp [Module.bare, inside.bare_eq as bs]

/-- The programs that annotations put at one place make are the same without annotations. -/
theorem Gap.bare_eq {us vs : List Token} {put : List Annotation → List Module}
    (h : Gap us vs put) (as bs : List Annotation) :
    (put as).map Module.bare = (put bs).map Module.bare := by
  obtain @⟨_, _, _, _, _, _, _, _, inside, _⟩ := h
  simp [inside.bare_eq as bs]

/-! ### Every declaration has places -/

/-- A declaration of a program: its annotations, and the program that others make in their place. -/
inductive Declares : List Module → List Annotation → (List Annotation → List Module) → Prop where
  | module {ms ns : List Module} {m : Module} {as : List Annotation} :
      Declares (ms ++ m.decorate as :: ns) as fun cs => ms ++ m.decorate cs :: ns
  | interface {ms ns : List Module} {m : Module} {is js : List Interface} {i : Interface}
      {as : List Annotation} (hi : m.interfaces = is ++ i.decorate as :: js) :
      Declares (ms ++ m :: ns) as fun cs =>
        ms ++ { m with interfaces := is ++ i.decorate cs :: js } :: ns
  | member {ms ns : List Module} {m : Module} {is js : List Interface} {i : Interface}
      {xs ys : List Member} {x : Member} {as : List Annotation}
      (hi : m.interfaces = is ++ i :: js) (hx : i.members = xs ++ x.decorate as :: ys) :
      Declares (ms ++ m :: ns) as fun cs =>
        ms ++ { m with interfaces := is ++
          Interface.ofMembers i.name (xs ++ x.decorate cs :: ys) i.annotations i.span :: js } :: ns

section Exists
variable {α : Type} {piece : List Token → α → Prop} {ts : List Token}

theorem exists_front {decorate : α → List Annotation → α} {a : α} {as bs : List Annotation}
    {run core : List Token} (hr : Many AnnotationDecl run (as ++ bs))
    (hc : piece core (decorate a [])) :
    ∃ us vs, run ++ core = us ++ vs ∧
      Front piece decorate us vs fun cs => decorate a (as ++ cs ++ bs) := by
  obtain ⟨us, vs, rfl, hu, hv⟩ := hr.exists_split
  exact ⟨us, vs ++ core, List.append_assoc .., .mk hu hv hc⟩

theorem exists_among (gap : List Token → List Token → (List Annotation → α) → Prop)
    {as bs : List α} {a : α} {put : List Annotation → α} (h : Many piece ts (as ++ a :: bs))
    (hpiece : ∀ {ts}, piece ts a → ∃ us vs, ts = us ++ vs ∧ gap us vs put) :
    ∃ us vs, ts = us ++ vs ∧ Among piece gap us vs fun cs => as ++ put cs :: bs := by
  obtain ⟨ts₁, ts₂, ts₃, rfl, before, middle, behind⟩ := h.exists_middle
  obtain ⟨us, vs, rfl, inside⟩ := hpiece middle
  exact ⟨ts₁ ++ us, vs ++ ts₃, by simp, .mk before inside behind⟩

end Exists

theorem exists_interfaceGap_own {ts : List Token} {i : Interface} {as bs : List Annotation}
    (h : InterfaceDecl ts (i.decorate (as ++ bs))) :
    ∃ us vs, ts = us ++ vs ∧ InterfaceGap us vs fun cs => i.decorate (as ++ cs ++ bs) := by
  obtain ⟨run, core, rfl, hr, hc⟩ := h.exists_core
  obtain ⟨us, vs, he, hf⟩ := exists_front hr hc
  exact ⟨us, vs, he, .own hf⟩

theorem exists_interfaceGap_member {ts : List Token} {i : Interface} {xs ys : List Member}
    {x : Member} {as bs : List Annotation} (h : InterfaceDecl ts i)
    (hx : i.members = xs ++ x.decorate (as ++ bs) :: ys) :
    ∃ us vs, ts = us ++ vs ∧ InterfaceGap us vs fun cs =>
      .ofMembers i.name (xs ++ x.decorate (as ++ cs ++ bs) :: ys) i.annotations i.span := by
  obtain @⟨ts, _, brace, heading, members, hs, hm, hb⟩ := h
  rw [Interface.members_ofMembers] at hx
  rw [hx] at hm
  obtain ⟨us, vs, rfl, inside⟩ := exists_among MemberGap hm fun h => by
    obtain ⟨run, t, core, rfl, hr, hc, -⟩ := h.fronted
    exact exists_front hr hc
  exact ⟨ts ++ us, vs ++ [brace], by simp, .member hs inside hb⟩

theorem exists_moduleGap_interface {ts : List Token} {m : Module} {is js : List Interface}
    {i : Interface} {put : List Annotation → Interface} (h : ModuleDecl ts m)
    (hi : m.interfaces = is ++ i :: js)
    (hput : ∀ {ts}, InterfaceDecl ts i → ∃ us vs, ts = us ++ vs ∧ InterfaceGap us vs put) :
    ∃ us vs, ts = us ++ vs ∧
      ModuleGap us vs fun cs => { m with interfaces := is ++ put cs :: js } := by
  obtain @⟨ts, _, brace, heading, interfaces, hs, hm, hb⟩ := h
  rw [show interfaces = is ++ i :: js from hi] at hm
  obtain ⟨us, vs, rfl, inside⟩ := exists_among InterfaceGap hm hput
  exact ⟨ts ++ us, vs ++ [brace], by simp, .interface hs inside hb⟩

/-- **Every declaration has a place between any two of its annotations**, before the first and
behind the last. -/
theorem exists_gap {ts : List Token} {program : List Module} (h : Program ts program)
    {as₁ as₂ : List Annotation} {put : List Annotation → List Module}
    (hd : Declares program (as₁ ++ as₂) put) :
    ∃ us vs, ts = us ++ vs ∧ Gap us vs fun cs => put (as₁ ++ cs ++ as₂) := by
  generalize has : as₁ ++ as₂ = as at hd
  cases hd with
  | module =>
    subst has
    refine exists_among ModuleGap h fun h => ?_
    obtain ⟨run, core, rfl, hr, hc⟩ := h.exists_core
    obtain ⟨us, vs, he, hf⟩ := exists_front hr hc
    exact ⟨us, vs, he, .own hf⟩
  | interface hi =>
    subst has
    exact exists_among ModuleGap h fun h =>
      exists_moduleGap_interface h hi exists_interfaceGap_own
  | member hi hx =>
    subst has
    exact exists_among ModuleGap h fun h =>
      exists_moduleGap_interface h hi fun h => exists_interfaceGap_member h hx

end Grammar

/-! ### Parsing -/

namespace Token

theorem exists_beforeEnd_append (ts : List Token) :
    ∃ tail, ts = beforeEnd ts ++ tail ∧ beforeEnd tail = [] := by
  induction ts with
  | nil => exact ⟨[], rfl, rfl⟩
  | cons t ts ih =>
    cases he : t.isEnd with
    | true => exact ⟨t :: ts, by rw [Draft.beforeEnd_end he]; rfl, Draft.beforeEnd_end he ts⟩
    | false =>
      obtain ⟨tail, hts, htail⟩ := ih
      refine ⟨tail, ?_, htail⟩
      rw [Draft.beforeEnd_cons he, List.cons_append, ← hts]

theorem beforeEnd_append {us : List Token} (h : ∀ t ∈ us, t.isEnd = false) (vs : List Token) :
    beforeEnd (us ++ vs) = us ++ beforeEnd vs :=
  List.takeWhile_append_of_pos fun t ht => by rw [h t ht]; rfl

theorem isEnd_of_mem_beforeEnd {ts : List Token} {t : Token} (h : t ∈ beforeEnd ts) :
    t.isEnd = false := by
  simpa using List.mem_takeWhile_imp h

end Token

/-- The tokens of a program have no end among them. -/
theorem isEnd_of_program {ts : List Token} {program : List Module} (h : Program ts program) :
    ∀ t ∈ ts, t.isEnd = false := by
  have hrun := Draft.run_eq_some_iff.mpr h
  rw [← Draft.beforeEnd_of_run hrun (t := .implicitEnd) rfl]
  exact fun t ht => Token.isEnd_of_mem_beforeEnd ht

/-- The tokens of a program are parsed into it if its names are apart, up to where they end. -/
theorem parse_program_append {us tail : List Token} {program ms : List Module}
    (h : Program us program) (ht : Token.beforeEnd tail = []) :
    parse (us ++ tail) = .ok ms ↔ program = ms ∧ DistinctNames ms := by
  have hbefore : Token.beforeEnd (us ++ tail) = us := by
    rw [Token.beforeEnd_append (isEnd_of_program h), ht, List.append_nil]
  rw [parse, Draft.read_eq_ok_iff Draft.distinct_empty, hbefore, Draft.run_eq_some_iff.mpr h]
  simp

/-- **Annotations do not affect what they decorate.** Without its annotations a list of tokens is
parsed into the same program without annotations. One annotation more, at any place between the
annotations of a declaration, is added there and changes nothing else; and every declaration has
such a place wherever its annotations can be cut in two. -/
theorem parse_annotation_frame {ts : List Token} {program : List Module}
    (h : parse ts = .ok program) :
    parse (Token.withoutAnnotations ts) = .ok (program.map Module.bare) ∧
    (∀ before behind put, ts = before ++ behind → Gap before (Token.beforeEnd behind) put →
      put [] = program ∧
        ∀ us a, AnnotationDecl us a → parse (before ++ us ++ behind) = .ok (put [a])) ∧
    ∀ as₁ as₂ put, Declares program (as₁ ++ as₂) put →
      ∃ before behind, ts = before ++ behind ∧
        Gap before (Token.beforeEnd behind) fun cs => put (as₁ ++ cs ++ as₂) := by
  obtain ⟨hrun, hd⟩ := (Draft.read_eq_ok_iff Draft.distinct_empty).mp h
  have hp : Program (Token.beforeEnd ts) program := Draft.run_eq_some_iff.mp hrun
  refine ⟨?_, ?_, ?_⟩
  · obtain ⟨us, hbare, hstrips⟩ := exists_bare_program hp
    obtain ⟨tail, hts, htail⟩ := Token.exists_beforeEnd_append ts
    have hleft : Token.withoutAnnotations ts = us ++ tail := by
      rw [hts, hstrips, Token.withoutAnnotations_of_beforeEnd htail]
    rw [hleft]
    exact (parse_program_append hbare htail).mpr ⟨rfl, distinctNames_bare.mpr hd⟩
  · rintro before behind put rfl hgap
    obtain ⟨tail, hbehind, htail⟩ := Token.exists_beforeEnd_append behind
    have hold : Program (before ++ Token.beforeEnd behind) (put []) := by
      simpa using program_of_gap hgap .nil
    have hput : put [] = program := by
      rw [hbehind, ← List.append_assoc] at h
      exact ((parse_program_append hold htail).mp h).1
    refine ⟨hput, fun us a ha => ?_⟩
    have hnew : Program (before ++ us ++ Token.beforeEnd behind) (put [a]) :=
      program_of_gap hgap (.one ha)
    have hnames : DistinctNames (put [a]) := by
      rw [← distinctNames_bare, hgap.bare_eq [a] [], distinctNames_bare, hput]
      exact hd
    rw [hbehind, ← List.append_assoc]
    exact (parse_program_append hnew htail).mpr ⟨rfl, hnames⟩
  · intro as₁ as₂ put hdecl
    obtain ⟨us, vs, hsplit, hgap⟩ := exists_gap hp hdecl
    obtain ⟨tail, hts, htail⟩ := Token.exists_beforeEnd_append ts
    have hvs : ∀ t ∈ vs, t.isEnd = false := fun t ht =>
      isEnd_of_program hp t (by rw [hsplit]; simp [ht])
    refine ⟨us, vs ++ tail, by rw [← List.append_assoc, ← hsplit, ← hts], ?_⟩
    rwa [Token.beforeEnd_append hvs, htail, List.append_nil]

/-- The annotation `@c(1)` behind `@b`, in front of a read-only attribute. -/
theorem parse_annotation_frame_attribute :
    let before : List Token := [⟨.keyword .module, ⟨0, 6, 1, 1⟩⟩, ⟨.identifier "M", ⟨7, 8, 1, 8⟩⟩,
      ⟨.punctuation .openBrace, ⟨9, 10, 1, 10⟩⟩, ⟨.keyword .interface, ⟨10, 19, 1, 11⟩⟩,
      ⟨.identifier "I", ⟨20, 21, 1, 21⟩⟩, ⟨.punctuation .openBrace, ⟨21, 22, 1, 22⟩⟩,
      ⟨.punctuation .atSign, ⟨22, 23, 1, 23⟩⟩, ⟨.identifier "b", ⟨23, 24, 1, 24⟩⟩]
    let core : List Token := [⟨.keyword .readonly, ⟨25, 33, 1, 26⟩⟩,
      ⟨.identifier "T", ⟨34, 35, 1, 35⟩⟩, ⟨.identifier "x", ⟨36, 37, 1, 37⟩⟩,
      ⟨.punctuation .semicolon, ⟨37, 38, 1, 38⟩⟩]
    let closing : List Token := [⟨.punctuation .closeBrace, ⟨38, 39, 1, 39⟩⟩,
      ⟨.punctuation .closeBrace, ⟨39, 40, 1, 40⟩⟩]
    let behind : List Token := core ++ closing ++ [⟨.endOfInput, ⟨40, 40, 1, 41⟩⟩]
    let us : List Token := [⟨.punctuation .atSign, ⟨50, 51, 1, 51⟩⟩,
      ⟨.identifier "c", ⟨51, 52, 1, 52⟩⟩, ⟨.punctuation .openParen, ⟨52, 53, 1, 53⟩⟩,
      ⟨.number "1", ⟨53, 54, 1, 54⟩⟩, ⟨.punctuation .closeParen, ⟨54, 55, 1, 55⟩⟩]
    let b : Annotation := ⟨"b", none, ⟨22, 24, 1, 23⟩⟩
    let c : Annotation := ⟨"c", some (.number "1"), ⟨50, 55, 1, 51⟩⟩
    let program (as : List Annotation) : List Module :=
      [⟨"M", [⟨"I", [⟨"x", "T", .readOnly, as, ⟨36, 37, 1, 37⟩⟩], [], [.attribute], [],
        ⟨20, 21, 1, 21⟩⟩], [], ⟨7, 8, 1, 8⟩⟩]
    parse (before ++ behind) = .ok (program [b]) ∧
      parse (Token.withoutAnnotations (before ++ behind)) = .ok (program []) ∧
      parse (before ++ us ++ behind) = .ok (program [b, c]) := by
  intro before core closing behind us b c program
  have h : parse (before ++ behind) = .ok (program [b]) := rfl
  have hframe := parse_annotation_frame h
  have hus : AnnotationDecl us c := .valued rfl rfl rfl (.number "1") rfl
  have hb : AnnotationDecl (before.drop 6) b := .bare rfl rfl
  let x : Member := .attribute ⟨"x", "T", .readOnly, [], ⟨36, 37, 1, 37⟩⟩
  have hcore : MemberDecl core (x.decorate []) :=
    .attribute (.mk (.modified .nil .readonly rfl) rfl rfl)
  have hmember : MemberGap (before.drop 6) core fun cs => x.decorate ([b] ++ cs ++ []) :=
    Front.mk (.one hb) .nil hcore
  have hinterface : InterfaceGap (before.drop 3) (core ++ closing.take 1) fun cs =>
      .ofMembers "I" [x.decorate ([b] ++ cs ++ [])] [] ⟨20, 21, 1, 21⟩ :=
    .member (.mk .nil rfl rfl rfl) (Among.mk .nil hmember .nil) rfl
  have hmodule : ModuleGap before (core ++ closing) fun cs =>
      ⟨"M", [.ofMembers "I" [x.decorate ([b] ++ cs ++ [])] [] ⟨20, 21, 1, 21⟩], [], ⟨7, 8, 1, 8⟩⟩ :=
    .interface (.mk .nil rfl rfl rfl) (Among.mk .nil hinterface .nil) rfl
  have hgap : Gap before (core ++ closing ++ []) fun cs => program ([b] ++ cs ++ []) :=
    Among.mk .nil hmodule .nil
  exact ⟨h, hframe.1, (hframe.2.1 before behind _ rfl hgap).2 us c hus⟩

end Idl
