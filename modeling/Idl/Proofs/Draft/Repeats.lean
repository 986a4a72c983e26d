import Idl.Proofs.Draft.Viable
import Mathlib.Data.List.Induction
import Mathlib.Data.Nat.Find

/-! # Repeated names

An attribute is complete at its semicolon, an interface or a module at its closing brace. Some
tokens end in a repeated name if they end in a declaration whose name an earlier one of its scope
has (`Repeats`); this looks at the grammar only, and methods have no part in it. Reading finds a
clash at exactly these tokens (`repeats_iff_clash`). So the first of them is reported, if it comes
before the first token behind which no program can follow, and no other.

* `run_of_reads`: the tokens up to a place where a declaration can start lead there.
* `distinct_of_no_repeats`: as long as no name is repeated, the names of a draft are apart.
* `parse_reports_first_repeat`: which repeated name is reported, for every list of tokens. -/

namespace Idl

open Grammar

/-- The first declaration of a name among those of a scope. -/
def FirstNamed {α : Type} (nameOf : α → String) (declared : List α) (name : String) (first : α) :
    Prop :=
  ∃ before later, declared = before ++ first :: later ∧ nameOf first = name ∧
    ∀ a ∈ before, nameOf a ≠ name

theorem find?_eq_some_iff_firstNamed {α : Type} {nameOf : α → String} {declared : List α}
    {name : String} {first : α} :
    declared.find? (fun a => nameOf a = name) = some first ↔
      FirstNamed nameOf declared name first := by
  rw [List.find?_eq_some_iff_append]
  constructor
  · rintro ⟨hn, before, later, hd, hb⟩
    exact ⟨before, later, hd, by simpa using hn, fun a ha => by simpa using hb a ha⟩
  · rintro ⟨before, later, hd, hn, hb⟩
    exact ⟨by simpa using hn, before, later, hd, fun a ha => by simpa using hb a ha⟩

/-- **Tokens that end in a declaration whose name is taken**, and the error that tells so. It names
the declaration and the first one of its name in the same scope. An attribute or an interface is
shown at its name, a module at its closing brace. -/
inductive Repeats : List Token → ParseError → Prop where
  | ofAttribute {ts us : List Token} {b : InterfaceBody} {a first : Attribute}
      (hs : (Scope.interface b).Reads ts) (ha : AttributeDecl us a)
      (hf : FirstNamed Attribute.name (b.members.filterMap Member.attribute?) a.name first) :
      Repeats (ts ++ us) (.duplicateName .attribute a.name a.span first.span)
  | ofInterface {ts us : List Token} {b : ModuleBody} {i first : Interface}
      (hs : (Scope.module b).Reads ts) (hi : InterfaceDecl us i)
      (hf : FirstNamed Interface.name b.interfaces i.name first) :
      Repeats (ts ++ us) (.duplicateName .interface i.name i.span first.span)
  | ofModule {ts us : List Token} {brace : Token} {ms : List Module} {m first : Module}
      (hp : Program ts ms) (hm : ModuleDecl (us ++ [brace]) m)
      (hf : FirstNamed Module.name ms m.name first) :
      Repeats (ts ++ (us ++ [brace])) (.duplicateName .module m.name brace.span first.span)

theorem Repeats.exists_duplicate {ts : List Token} {e : ParseError} (h : Repeats ts e) :
    ∃ what name span first, e = .duplicateName what name span first := by
  cases h <;> exact ⟨_, _, _, _, rfl⟩

/-- The token at a place completes a declaration that repeats a name, and up to there the tokens
begin a program. -/
def RepeatsAt (ts : List Token) (k : Nat) (e : ParseError) : Prop :=
  k < (Token.closed ts).length ∧ Viable ((Token.closed ts).take (k + 1)) ∧
    Repeats ((Token.closed ts).take (k + 1)) e

namespace Draft

/-! ### Runs up to a declaration -/

/-- **The tokens up to a place where a declaration can start lead there.** -/
theorem run_of_reads {scope : Scope} {ts : List Token} (h : scope.Reads ts) :
    empty.run ts = some (.ready scope []) := by
  induction h with
  | program hp => exact run_of_program hp []
  | @module ts us vs b hp hs hi =>
    have hm := run_of_program hp []
    rw [List.nil_append] at hm
    have hstart := run_trans hm (run_of_moduleStart hs)
    exact run_trans hstart (run_of_interfaces hi ⟨b.modules, b.heading, []⟩)
  | @interface ts us vs b _ hs hm ih =>
    have hstart := run_trans ih (run_of_interfaceStart hs)
    exact run_trans hstart (run_of_members hm ⟨b.outer, b.heading, []⟩)

theorem run_of_attribute_name {b : InterfaceBody} {ts us : List Token} {word : Token}
    {h : MemberHeading} {name : String} (hs : (Scope.interface b).Reads ts)
    (hm : MemberStart us h) (hn : word.kind = .identifier name) :
    empty.run (ts ++ us ++ [word]) = some (.memberName b h name word.span) := by
  have hword : (memberType b h).run [word] = some (.memberName b h name word.span) := by
    simp [advance, Token.name?, hn]
  exact run_trans (run_trans (run_of_reads hs) (run_of_memberStart hm)) hword

/-! ### Repeated names and clashes -/

theorem clash_of_repeats {us : List Token} {t : Token} {e : ParseError}
    (h : Repeats (us ++ [t]) e) : ∃ d, empty.run us = some d ∧ d.clash t = some e := by
  generalize hall : us ++ [t] = all at h
  cases h with
  | @ofAttribute ts _ b _ first hs ha hf =>
    obtain @⟨ts', word, semicolon, heading, name, hm, hn, he⟩ := ha
    obtain ⟨rfl, hlast⟩ : us = ts ++ ts' ++ [word] ∧ [t] = [semicolon] :=
      List.append_inj' (hall.trans (by simp)) rfl
    obtain rfl := List.singleton_inj.mp hlast
    refine ⟨_, run_of_attribute_name hs hm hn, ?_⟩
    have hfind := find?_eq_some_iff_firstNamed.mpr hf
    simp [clash, Token.isMark, he, attributeNamed?, hfind]
  | @ofInterface ts _ b _ first hs hi hf =>
    obtain @⟨ts', us', brace, heading, members, hb, hm, hc⟩ := hi
    obtain ⟨rfl, hlast⟩ : us = ts ++ ts' ++ us' ∧ [t] = [brace] :=
      List.append_inj' (hall.trans (by simp)) rfl
    obtain rfl := List.singleton_inj.mp hlast
    have hreads := Scope.Reads.interface (b := ⟨b, heading, members⟩) hs hb hm
    refine ⟨_, run_of_reads hreads, ?_⟩
    have hfind : b.interfaces.find? (fun i => i.name = heading.name) = some first :=
      find?_eq_some_iff_firstNamed.mpr hf
    simp [clash, Token.isMark, hc, hfind, Interface.ofMembers]
  | @ofModule ts us' brace ms _ first hp hm hf =>
    obtain ⟨rfl, hlast⟩ : us = ts ++ us' ∧ [t] = [brace] :=
      List.append_inj' (hall.trans (by simp)) rfl
    obtain rfl := List.singleton_inj.mp hlast
    generalize hdecl : us' ++ [t] = decl at hm
    obtain @⟨vs, ws, brace', heading, interfaces, hb, hi, hc⟩ := hm
    obtain ⟨rfl, hlast'⟩ : us' = vs ++ ws ∧ [t] = [brace'] := List.append_inj' hdecl rfl
    obtain rfl := List.singleton_inj.mp hlast'
    have hreads := Scope.Reads.module (b := ⟨ms, heading, interfaces⟩) hp hb hi
    rw [List.append_assoc] at hreads
    refine ⟨_, run_of_reads hreads, ?_⟩
    have hfind := find?_eq_some_iff_firstNamed.mpr hf
    simp [clash, Token.isMark, hc, hfind]

theorem repeats_of_clash {d : Draft} {us : List Token} {t : Token} {e : ParseError}
    (hr : Reads d us) (h : d.clash t = some e) : Repeats (us ++ [t]) e := by
  rcases clash_cases h with ⟨body, heading, name, span, first, rfl, hm, hf, rfl⟩ |
    ⟨body, first, rfl, hm, hf, rfl⟩ | ⟨body, first, rfl, hm, hf, rfl⟩
  · cases hr with
    | @memberName ts us word _ _ _ hs hst hn =>
      have ha := AttributeDecl.mk hst hn (Token.isMark_iff.mp hm)
      have hr := Repeats.ofAttribute hs ha (find?_eq_some_iff_firstNamed.mp hf)
      simpa using hr
  · cases hr with
    | ready hs ha =>
      obtain rfl := eq_nil_of_many ha
      obtain _ | _ | ⟨ho, hb, hms⟩ := hs
      have hi := InterfaceDecl.mk hb hms (Token.isMark_iff.mp hm)
      have hr := Repeats.ofInterface ho hi (find?_eq_some_iff_firstNamed.mp hf)
      simpa [Interface.ofMembers] using hr
  · cases hr with
    | ready hs ha =>
      obtain rfl := eq_nil_of_many ha
      obtain _ | ⟨hp, hb, hi⟩ := hs
      have hd := ModuleDecl.mk hb hi (Token.isMark_iff.mp hm)
      have hr := Repeats.ofModule hp hd (find?_eq_some_iff_firstNamed.mp hf)
      simpa using hr

/-- **A name clashes exactly where tokens end in a repeated name.** -/
theorem repeats_iff_clash {us : List Token} {t : Token} {e : ParseError} :
    Repeats (us ++ [t]) e ↔ ∃ d, empty.run us = some d ∧ d.clash t = some e := by
  refine ⟨clash_of_repeats, ?_⟩
  rintro ⟨d, hr, hc⟩
  exact repeats_of_clash (reads_of_run hr) hc

/-- **As long as no name is repeated, the names of a draft are apart.** -/
theorem distinct_of_no_repeats {us : List Token} {d : Draft} (hr : empty.run us = some d)
    (h : ∀ j < us.length, ∀ e, ¬ Repeats (us.take (j + 1)) e) : d.Distinct := by
  induction us using List.reverseRecOn generalizing d with
  | nil => cases hr; exact distinct_empty
  | append_singleton us t ih =>
    obtain ⟨d₁, h₁, h₂⟩ := exists_run_of_append hr
    have hadvance : d₁.advance t = some d := by simpa using h₂
    have hd₁ : d₁.Distinct := by
      refine ih h₁ fun j hj e he => h j (by simp; omega) e ?_
      rwa [List.take_append_of_le_length (by omega)]
    have hclash : d₁.clash t = none := by
      cases hc : d₁.clash t with
      | none => rfl
      | some e =>
        refine absurd (repeats_iff_clash.mpr ⟨d₁, h₁, hc⟩) ?_
        have hlast := h us.length (by simp) e
        rwa [List.take_of_length_le (by simp)] at hlast
    exact (distinct_advance hadvance).mpr ⟨hd₁, hclash⟩

/-! ### Reading -/

theorem read_closed (d : Draft) (ts : List Token) : d.read (Token.closed ts) = d.read ts := by
  induction ts generalizing d with
  | nil => exact read_end d rfl []
  | cons t ts ih =>
    cases he : t.isEnd with
    | true => rw [Token.closed_end he, read_end d he, read_end d he]
    | false =>
      rw [Token.closed_cons he]
      simp only [read, he, Bool.false_eq_true, if_false, ih]

/-- A token at which a name clashes ends the reading, if the names before are apart. -/
theorem read_of_clash {us vs : List Token} {t : Token} {d : Draft} {e : ParseError}
    (hr : empty.run us = some d) (hd : d.Distinct) (hc : d.clash t = some e) :
    empty.read (us ++ t :: vs) = .error e := by
  have hend : t.isEnd = false := by
    refine Bool.eq_false_iff.mpr fun he => ?_
    have hs := isSome_advance_of_clash hc
    rw [advance_end d he] at hs
    cases hs
  rw [read_append_of_run hr hd, read_of_error hend (step_of_clash hc)]

theorem refusal_ne_duplicate (d : Draft) (t : Token) (what : Declared) (name : String)
    (span first : Span) : d.refusal t ≠ .duplicateName what name span first := by
  rcases refusal_cases d t with ⟨_, _, _, _, _, h⟩ | ⟨_, _, h⟩ | ⟨_, _, _, _, _, _, _, _, h⟩ |
    ⟨_, h⟩ <;> simp [h]

theorem parse_of_repeatsAt {ts : List Token} {k : Nat} {e : ParseError} (h : RepeatsAt ts k e)
    (hfirst : ∀ j < k, ∀ e', ¬ RepeatsAt ts j e') : parse ts = .error e := by
  obtain ⟨hk, hv, hrep⟩ := h
  obtain ⟨us, t, vs, hsplit, hlen⟩ :
      ∃ us t vs, Token.closed ts = us ++ t :: vs ∧ us.length = k := by
    refine ⟨(Token.closed ts).take k, (Token.closed ts)[k], (Token.closed ts).drop (k + 1), ?_, ?_⟩
    · rw [List.getElem_cons_drop, List.take_append_drop]
    · rw [List.length_take]; omega
  subst hlen
  have htake : (Token.closed ts).take (us.length + 1) = us ++ [t] := by
    rw [hsplit, List.take_length_add_append]; rfl
  rw [htake] at hrep hv
  obtain ⟨d, hr, hc⟩ := repeats_iff_clash.mp hrep
  have hd : d.Distinct := by
    refine distinct_of_no_repeats hr fun j hj e' he' => hfirst j hj e' ⟨by omega, ?_, ?_⟩
    · have hfront : (Token.closed ts).take (j + 1) ++ (us.drop (j + 1) ++ [t]) = us ++ [t] := by
        rw [hsplit, List.take_append_of_le_length (by omega), ← List.append_assoc,
          List.take_append_drop]
      exact Viable.of_append (hfront ▸ hv)
    · rwa [hsplit, List.take_append_of_le_length (by omega)]
  rw [parse, ← read_closed, hsplit]
  exact read_of_clash hr hd hc

theorem repeatsAt_of_parse {ts : List Token} {what : Declared} {name : String} {span first : Span}
    (h : parse ts = .error (.duplicateName what name span first)) :
    ∃ k, RepeatsAt ts k (.duplicateName what name span first) := by
  obtain ⟨us, t, vs, d, hsplit, hr, hcase⟩ := exists_of_read_error h
  have hc : d.clash t = some (.duplicateName what name span first) := by
    rcases hcase with hc | ⟨-, he⟩
    · exact hc
    · exact absurd he.symm (refusal_ne_duplicate d t what name span first)
  have htake : (Token.closed ts).take (us.length + 1) = us ++ [t] := by
    rw [hsplit, List.take_length_add_append]; rfl
  obtain ⟨d', hd'⟩ := Option.isSome_iff_exists.mp (isSome_advance_of_clash hc)
  have hv : Viable (us ++ [t]) := viable_iff_run.mpr ⟨d', run_trans hr (by simpa using hd')⟩
  refine ⟨us.length, by rw [hsplit]; simp, by rwa [htake], ?_⟩
  rw [htake]
  exact repeats_iff_clash.mpr ⟨d, hr, hc⟩

end Draft

/-- **The first repeated name is reported, and no other.** If names are repeated before the first
token behind which no program can follow, parsing fails with the error for the declaration that is
complete first; there is one error for it. If none is, no repeated name is reported. -/
theorem parse_reports_first_repeat (ts : List Token) :
    ((∃ k e, RepeatsAt ts k e) → ∃ k e, RepeatsAt ts k e ∧
      (∀ j < k, ∀ e', ¬ RepeatsAt ts j e') ∧ (∀ e', RepeatsAt ts k e' → e' = e) ∧
      parse ts = .error e) ∧
    ((¬ ∃ k e, RepeatsAt ts k e) → ∀ what name span first,
      parse ts ≠ .error (.duplicateName what name span first)) := by
  classical
  constructor
  · intro h
    obtain ⟨e, he⟩ := Nat.find_spec h
    have hfirst : ∀ j < Nat.find h, ∀ e', ¬ RepeatsAt ts j e' :=
      fun j hj e' he' => Nat.find_min h hj ⟨e', he'⟩
    have hparse := Draft.parse_of_repeatsAt he hfirst
    refine ⟨Nat.find h, e, he, hfirst, fun e' he' => ?_, hparse⟩
    have hparse' := Draft.parse_of_repeatsAt he' hfirst
    rw [hparse] at hparse'
    exact (Except.error.inj hparse').symm
  · intro h what name span first hp
    obtain ⟨k, hk⟩ := Draft.repeatsAt_of_parse hp
    exact h ⟨k, _, hk⟩

/-- The tokens of an interface with some members, which stays open. -/
def openInterface (members : List TokenKind) : List Token :=
  let kinds : List TokenKind := [.keyword .module, .identifier "M", .punctuation .openBrace,
    .keyword .interface, .identifier "I", .punctuation .openBrace]
  (kinds ++ members).zipIdx.map fun x => ⟨x.1, ⟨x.2, x.2 + 1, 1, x.2 + 1⟩⟩

/-- `T x; T x(); U x; ,`: an attribute, a method and an attribute of one name, and then a token that
cannot come next. -/
def threeMembers : List Token :=
  openInterface [.identifier "T", .identifier "x", .punctuation .semicolon, .identifier "T",
    .identifier "x", .punctuation .openParen, .punctuation .closeParen, .punctuation .semicolon,
    .identifier "U", .identifier "x", .punctuation .semicolon, .punctuation .comma]

/-- `T x(); U x; ,`: a method and an attribute of one name, and then a token that cannot come
next. -/
def twoMembers : List Token :=
  openInterface [.identifier "T", .identifier "x", .punctuation .openParen,
    .punctuation .closeParen, .punctuation .semicolon, .identifier "U", .identifier "x",
    .punctuation .semicolon, .punctuation .comma]

/-- Of the three members the second attribute is reported, with the first one; of the two members
none. -/
theorem parse_reports_second_attribute :
    (∃ k e, RepeatsAt threeMembers k e) ∧
    (∃ k e, RepeatsAt threeMembers k e ∧ (∀ j < k, ∀ e', ¬ RepeatsAt threeMembers j e') ∧
      (∀ e', RepeatsAt threeMembers k e' → e' = e) ∧ parse threeMembers = .error e) ∧
    parse threeMembers =
      .error (.duplicateName .attribute "x" ⟨15, 16, 1, 16⟩ ⟨7, 8, 1, 8⟩) ∧
    (¬ ∃ k e, RepeatsAt twoMembers k e) ∧
    ∀ what name span first, parse twoMembers ≠ .error (.duplicateName what name span first) := by
  have hthree : parse threeMembers =
      .error (.duplicateName .attribute "x" ⟨15, 16, 1, 16⟩ ⟨7, 8, 1, 8⟩) := rfl
  obtain ⟨k, hk⟩ := Draft.repeatsAt_of_parse hthree
  have htwo : parse twoMembers = .error (.unexpectedToken .memberOrClose
      ⟨.punctuation .comma, ⟨14, 15, 1, 15⟩⟩) := rfl
  have hnone : ¬ ∃ k e, RepeatsAt twoMembers k e := by
    intro h
    obtain ⟨k, e, ⟨-, -, he⟩, -, -, hp⟩ := (parse_reports_first_repeat twoMembers).1 h
    obtain ⟨what, name, span, first, rfl⟩ := he.exists_duplicate
    rw [htwo] at hp
    cases hp
  exact ⟨⟨k, _, hk⟩, (parse_reports_first_repeat threeMembers).1 ⟨k, _, hk⟩, hthree, hnone,
    (parse_reports_first_repeat twoMembers).2 hnone⟩

end Idl
