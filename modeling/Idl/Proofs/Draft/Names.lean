import Idl.Parse
import Idl.Proofs.Draft.Reading
import Mathlib.Data.List.Nodup

/-! # Names

Modules have names of their own in a program, interfaces in their module, attributes in their
interface; methods may repeat any name. A draft keeps its names apart if this holds of all that is
complete in it, within the blocks that are still open too (`Scope.Distinct`).

* `distinct_advance`: a token that the grammar lets come next keeps the names apart exactly if they
  were and the token completes nothing whose name is taken (the step).
* `read_eq_ok_iff`: so reading succeeds exactly if the run of the tokens before the end leads to a
  program whose names are apart (the run).
* `parse_eq_ok_iff_program`: a list of tokens is parsed into a program exactly if the grammar
  derives the program from them and its names are apart. -/

namespace Idl

open Grammar

/-! ### Lists with names of their own -/

/-- Declarations of one scope: no two have one name, and each is right in itself. -/
def DistinctBy {α : Type} (name : α → String) (inner : α → Prop) (as : List α) : Prop :=
  (as.map name).Nodup ∧ ∀ a ∈ as, inner a

/-- No two attributes of an interface have one name. -/
def Interface.Distinct (i : Interface) : Prop := (i.attributes.map Attribute.name).Nodup

/-- No two interfaces of a module have one name, and no two attributes of one of them. -/
def Module.Distinct (m : Module) : Prop := DistinctBy Interface.name Interface.Distinct m.interfaces

/-- **No two modules of a program have one name**, no two interfaces of a module and no two
attributes of an interface. -/
def DistinctNames (program : List Module) : Prop :=
  DistinctBy Module.name Module.Distinct program

theorem distinctBy_nil {α : Type} (name : α → String) (inner : α → Prop) :
    DistinctBy name inner [] := by
  simp [DistinctBy]

/-- A declaration can be added if it is right in itself and none of its name is found. -/
theorem distinctBy_snoc {α : Type} {name : α → String} {inner : α → Prop} {as : List α} {a : α} :
    DistinctBy name inner (as ++ [a]) ↔
      DistinctBy name inner as ∧ inner a ∧ as.find? (fun b => name b = name a) = none := by
  simp only [DistinctBy, List.map_append, List.map_cons, List.map_nil, List.nodup_append,
    List.nodup_singleton, List.mem_singleton, List.mem_append, List.mem_map, List.find?_eq_none,
    decide_eq_true_eq]
  constructor
  · rintro ⟨⟨hn, -, hd⟩, hi⟩
    refine ⟨⟨hn, fun b hb => hi b (.inl hb)⟩, hi a (.inr rfl), fun b hb he => ?_⟩
    exact hd (name b) ⟨b, hb, rfl⟩ (name a) rfl he
  · rintro ⟨⟨hn, hi⟩, ha, hf⟩
    refine ⟨⟨hn, trivial, ?_⟩, ?_⟩
    · rintro _ ⟨b, hb, rfl⟩ _ rfl he
      exact hf b hb he
    · rintro b (hb | rfl)
      · exact hi b hb
      · exact ha

/-- The tokens before the first end token; all of them if there is none. -/
def Token.beforeEnd (ts : List Token) : List Token := ts.takeWhile fun t => !t.isEnd

/-! ### Drafts with names of their own -/

/-- The names within a scope and around it are apart. -/
def Scope.Distinct : Scope → Prop
  | .program modules => DistinctNames modules
  | .module b => DistinctNames b.modules ∧ DistinctBy Interface.name Interface.Distinct b.interfaces
  | .interface b =>
    (DistinctNames b.outer.modules ∧
      DistinctBy Interface.name Interface.Distinct b.outer.interfaces) ∧
      DistinctBy Attribute.name (fun _ => True) (b.members.filterMap Member.attribute?)

namespace Draft

/-- The innermost place of a draft where declarations can stand. -/
def scope : Draft → Scope
  | .ready scope _ | .annotationSign scope .. | .annotationName scope .. | .annotationOpen scope ..
  | .annotationValue scope .. => scope
  | .moduleKeyword modules _ | .moduleName modules _ => .program modules
  | .interfaceKeyword body _ | .interfaceName body _ => .module body
  | .memberModifier body .. | .memberType body _ | .memberName body .. | .parametersOpen body _
  | .parameterComma body _ | .parameterType body .. | .parameterName body _
  | .parametersClose body _ => .interface body

/-- The names in a draft are apart. -/
def Distinct (d : Draft) : Prop := d.scope.Distinct

theorem distinct_empty : empty.Distinct := distinctBy_nil _ _

theorem distinct_add_method {b : InterfaceBody} {m : Method} :
    (Scope.interface (b.add (.method m))).Distinct ↔ (Scope.interface b).Distinct := by
  simp only [Scope.Distinct, InterfaceBody.add, List.filterMap_append, List.filterMap_cons,
    Member.attribute?, List.filterMap_nil, List.append_nil]

theorem distinct_add_attribute {b : InterfaceBody} {a : Attribute} :
    (Scope.interface (b.add (.attribute a))).Distinct ↔
      (Scope.interface b).Distinct ∧ attributeNamed? b.members a.name = none := by
  simp only [Scope.Distinct, InterfaceBody.add, List.filterMap_append, List.filterMap_cons,
    Member.attribute?, List.filterMap_nil, distinctBy_snoc, true_and, attributeNamed?, and_assoc]

theorem distinct_close_interface {b : InterfaceBody} :
    (Scope.module b.close).Distinct ↔ (Scope.interface b).Distinct ∧
      (b.outer.interfaces.find? fun i => i.name = b.heading.name) = none := by
  have hi : (Interface.ofMembers b.heading.name b.members b.heading.annotations
      b.heading.span).Distinct ↔
      DistinctBy Attribute.name (fun _ => True) (b.members.filterMap Member.attribute?) := by
    simp [Interface.Distinct, Interface.ofMembers, DistinctBy]
  simp only [Scope.Distinct, InterfaceBody.close, distinctBy_snoc, hi, and_assoc]
  rfl

theorem distinct_close_module {b : ModuleBody} :
    (Scope.program b.close).Distinct ↔ (Scope.module b).Distinct ∧
      (b.modules.find? fun m => m.name = b.heading.name) = none := by
  simp only [Scope.Distinct, DistinctNames, ModuleBody.close, distinctBy_snoc, Module.Distinct,
    and_assoc]

/-- **The three ways in which names clash:** a semicolon completes an attribute whose name is taken,
a brace an interface or a module. -/
theorem clash_cases {d : Draft} {t : Token} {e : ParseError} (h : d.clash t = some e) :
    (∃ body heading name span first, d = .memberName body heading name span ∧
      t.isMark .semicolon = true ∧ attributeNamed? body.members name = some first ∧
      e = .duplicateName .attribute name span first.span) ∨
    (∃ body first, d = .ready (.interface body) [] ∧ t.isMark .closeBrace = true ∧
      (body.outer.interfaces.find? fun i => i.name = body.heading.name) = some first ∧
      e = .duplicateName .interface body.heading.name body.heading.span first.span) ∨
    ∃ body first, d = .ready (.module body) [] ∧ t.isMark .closeBrace = true ∧
      (body.modules.find? fun m => m.name = body.heading.name) = some first ∧
      e = .duplicateName .module body.heading.name t.span first.span := by
  unfold clash at h
  split at h
  · next body heading name span =>
    obtain ⟨hs, h⟩ := Option.ite_none_right_eq_some.mp h
    obtain ⟨first, hf, rfl⟩ := Option.map_eq_some_iff.mp h
    exact .inl ⟨body, heading, name, span, first, rfl, hs, hf, rfl⟩
  · next body =>
    obtain ⟨hb, h⟩ := Option.ite_none_right_eq_some.mp h
    obtain ⟨first, hf, rfl⟩ := Option.map_eq_some_iff.mp h
    exact .inr (.inl ⟨body, first, rfl, hb, hf, rfl⟩)
  · next body =>
    obtain ⟨hb, h⟩ := Option.ite_none_right_eq_some.mp h
    obtain ⟨first, hf, rfl⟩ := Option.map_eq_some_iff.mp h
    exact .inr (.inr ⟨body, first, rfl, hb, hf, rfl⟩)
  · cases h

/-- Only a semicolon or a closing brace completes a declaration. -/
theorem clash_eq_none_of_ne {d : Draft} {t : Token} (hs : t.kind ≠ .punctuation .semicolon)
    (hb : t.kind ≠ .punctuation .closeBrace) : d.clash t = none := by
  cases hc : d.clash t with
  | none => rfl
  | some e =>
    rcases clash_cases hc with ⟨_, _, _, _, _, -, hm, -⟩ | ⟨_, _, -, hm, -⟩ | ⟨_, _, -, hm, -⟩
    · exact absurd (Token.isMark_iff.mp hm) hs
    · exact absurd (Token.isMark_iff.mp hm) hb
    · exact absurd (Token.isMark_iff.mp hm) hb

/-- A token that completes nothing and opens nothing leaves the names as they are. -/
theorem distinct_of_scope_eq {d d' : Draft} {t : Token} (hs : d'.scope = d.scope)
    (hc : d.clash t = none) : d'.Distinct ↔ d.Distinct ∧ d.clash t = none := by
  simp [Distinct, hs, hc]

/-- A token where a declaration can start keeps the names apart unless it closes a block of a name
that is taken. -/
theorem distinct_accept {scope : Scope} {pending : List Annotation} {t : Token} {d' : Draft}
    (h : accept scope pending t = some d') :
    d'.Distinct ↔
      (ready scope pending).Distinct ∧ (ready scope pending).clash t = none := by
  cases accepts_of_accept h with
  | sign ht => exact distinct_of_scope_eq rfl (clash_eq_none_of_ne (by simp [ht]) (by simp [ht]))
  | moduleWord ht => exact distinct_of_scope_eq rfl rfl
  | interfaceWord ht =>
    exact distinct_of_scope_eq rfl (clash_eq_none_of_ne (by simp [ht]) (by simp [ht]))
  | closeModule ht =>
    simp [Distinct, Draft.scope, clash, ht, distinct_close_module]
  | closeInterface ht =>
    simp [Distinct, Draft.scope, clash, ht, distinct_close_interface]
  | modifier hm =>
    have hne : ∀ mark, t.kind ≠ .punctuation mark := by
      intro mark hk
      rw [hk] at hm
      cases hm
    exact distinct_of_scope_eq rfl (clash_eq_none_of_ne (hne _) (hne _))
  | type ht => exact distinct_of_scope_eq rfl (clash_eq_none_of_ne (by simp [ht]) (by simp [ht]))

/-- No block closes behind annotations. -/
theorem clash_of_pending {scope : Scope} {pending : List Annotation} (h : pending ≠ [])
    (t : Token) : (ready scope pending).clash t = none := by
  cases pending with
  | nil => exact absurd rfl h
  | cons => cases scope <;> rfl

/-- **One more token keeps the names apart** exactly if they were and no name clashes. -/
theorem distinct_advance {d d' : Draft} {t : Token} (h : d.advance t = some d') :
    d'.Distinct ↔ d.Distinct ∧ d.clash t = none := by
  cases d with
  | ready scope pending => exact distinct_accept h
  | annotationSign =>
    obtain ⟨name, -, rfl⟩ := exists_of_name h
    exact distinct_of_scope_eq rfl rfl
  | annotationName scope pending sign name span =>
    simp only [advance] at h
    split at h
    · cases h; exact distinct_of_scope_eq rfl rfl
    · rw [distinct_accept h, clash_of_pending (by simp)]
      rfl
  | annotationOpen =>
    obtain ⟨value, -, rfl⟩ := Option.map_eq_some_iff.mp h
    exact distinct_of_scope_eq rfl rfl
  | annotationValue =>
    obtain ⟨-, rfl⟩ := eq_of_mark h
    exact distinct_of_scope_eq rfl rfl
  | moduleKeyword =>
    obtain ⟨name, -, rfl⟩ := exists_of_name h
    exact distinct_of_scope_eq rfl rfl
  | moduleName modules heading =>
    obtain ⟨-, rfl⟩ := eq_of_mark h
    simp [Distinct, scope, clash, Scope.Distinct, distinctBy_nil]
  | interfaceKeyword =>
    obtain ⟨name, -, rfl⟩ := exists_of_name h
    exact distinct_of_scope_eq rfl rfl
  | interfaceName body heading =>
    obtain ⟨-, rfl⟩ := eq_of_mark h
    simp [Distinct, scope, clash, Scope.Distinct, distinctBy_nil]
  | memberModifier =>
    obtain ⟨type, -, rfl⟩ := exists_of_name h
    exact distinct_of_scope_eq rfl rfl
  | memberType =>
    obtain ⟨name, -, rfl⟩ := exists_of_name h
    exact distinct_of_scope_eq rfl rfl
  | memberName body heading name span =>
    simp only [advance] at h
    split at h
    · next hs =>
      cases h
      simp [Distinct, scope, clash, hs, distinct_add_attribute, MemberHeading.attribute]
    split at h
    · next hs _ => cases h; exact distinct_of_scope_eq rfl (by simp [clash, hs])
    · cases h
  | parametersOpen body method =>
    simp only [advance] at h
    split at h
    · cases h; exact distinct_of_scope_eq rfl rfl
    · obtain ⟨type, -, rfl⟩ := exists_of_name h
      exact distinct_of_scope_eq rfl rfl
  | parameterComma =>
    obtain ⟨type, -, rfl⟩ := exists_of_name h
    exact distinct_of_scope_eq rfl rfl
  | parameterType =>
    obtain ⟨name, -, rfl⟩ := exists_of_name h
    exact distinct_of_scope_eq rfl rfl
  | parameterName body method =>
    simp only [advance] at h
    split at h
    · cases h; exact distinct_of_scope_eq rfl rfl
    · obtain ⟨-, rfl⟩ := eq_of_mark h
      exact distinct_of_scope_eq rfl rfl
  | parametersClose body method =>
    obtain ⟨-, rfl⟩ := eq_of_mark h
    simp [Distinct, scope, clash, distinct_add_method]

/-- Names that are apart at the end of a run were apart all along. -/
theorem distinct_of_run {d d' : Draft} {ts : List Token} (h : d.run ts = some d')
    (hd : d'.Distinct) : d.Distinct := by
  induction ts generalizing d with
  | nil => cases h; exact hd
  | cons t ts ih =>
    rw [run_cons] at h
    obtain ⟨d₁, h₁, h₂⟩ := Option.bind_eq_some_iff.mp h
    exact ((distinct_advance h₁).mp (ih h₂)).1

/-! ### Reading -/

theorem finish_eq_ok_iff {d : Draft} {t : Token} {ms : List Module} :
    d.finish t = .ok ms ↔ d = .ready (.program ms) [] := by
  unfold finish
  constructor
  · intro h
    split at h
    · cases h; rfl
    · cases h
  · rintro rfl
    rfl

theorem beforeEnd_end {t : Token} (h : t.isEnd = true) (ts : List Token) :
    Token.beforeEnd (t :: ts) = [] := by
  simp only [Token.beforeEnd, List.takeWhile_cons, h, Bool.not_true, Bool.false_eq_true, if_false]

theorem beforeEnd_cons {t : Token} (h : t.isEnd = false) (ts : List Token) :
    Token.beforeEnd (t :: ts) = t :: Token.beforeEnd ts := by
  simp only [Token.beforeEnd, List.takeWhile_cons, h, Bool.not_false, if_true]

theorem step_of_clash {d : Draft} {t : Token} {e : ParseError} (h : d.clash t = some e) :
    d.step t = .error e := by
  simp [step, h]

theorem clash_eq_none_of_advance {d : Draft} {t : Token} (h : d.advance t = none) :
    d.clash t = none := by
  cases hc : d.clash t with
  | none => rfl
  | some e =>
    have hs := isSome_advance_of_clash hc
    rw [h] at hs
    cases hs

theorem step_of_refused {d : Draft} {t : Token} (h : d.advance t = none) :
    d.step t = .error (d.refusal t) := by
  simp [step, clash_eq_none_of_advance h, h]

theorem read_of_error {d : Draft} {t : Token} {e : ParseError} (ht : t.isEnd = false)
    (h : d.step t = .error e) (ts : List Token) : d.read (t :: ts) = .error e := by
  simp only [read, ht, Bool.false_eq_true, if_false, h]

/-- A run takes no end token, so it goes up to the first one. -/
theorem beforeEnd_of_run {d d' : Draft} {ts : List Token} (h : d.run ts = some d') {t : Token}
    (ht : t.isEnd = true) : Token.beforeEnd (ts ++ [t]) = ts := by
  induction ts generalizing d with
  | nil => exact beforeEnd_end ht []
  | cons u us ih =>
    rw [run_cons] at h
    obtain ⟨next, ha, hr⟩ := Option.bind_eq_some_iff.mp h
    have hu : u.isEnd = false := by
      refine Bool.eq_false_iff.mpr fun he => ?_
      rw [advance_end d he] at ha
      cases ha
    rw [List.cons_append, beforeEnd_cons hu, ih hr]

/-- At the end of the input a draft whose names are apart is a program or none. -/
theorem finish_eq_ok_iff_run {d : Draft} (hd : d.Distinct) {t : Token} {ms : List Module} :
    d.finish t = .ok ms ↔ d.run [] = some (.ready (.program ms) []) ∧ DistinctNames ms := by
  rw [finish_eq_ok_iff, run_nil, Option.some.injEq]
  constructor
  · rintro rfl
    exact ⟨rfl, hd⟩
  · exact And.left

/-- **Reading succeeds** exactly if the tokens before the end run to a program whose names are
apart. -/
theorem read_eq_ok_iff {d : Draft} (hd : d.Distinct) {ts : List Token} {ms : List Module} :
    d.read ts = .ok ms ↔
      d.run (Token.beforeEnd ts) = some (.ready (.program ms) []) ∧ DistinctNames ms := by
  induction ts generalizing d with
  | nil => exact finish_eq_ok_iff_run hd
  | cons t ts ih =>
    cases he : t.isEnd with
    | true =>
      rw [read_end d he, beforeEnd_end he]
      exact finish_eq_ok_iff_run hd
    | false =>
      rw [beforeEnd_cons he, run_cons]
      cases hc : d.clash t with
      | some e =>
        -- A clash is final: behind it the names are not apart, however the run goes on.
        rw [read_of_error he (step_of_clash hc)]
        constructor
        · intro h; cases h
        · rintro ⟨hr, hn⟩
          obtain ⟨d₁, h₁, h₂⟩ := Option.bind_eq_some_iff.mp hr
          have hd₁ : d₁.Distinct := distinct_of_run h₂ hn
          have hcn := ((distinct_advance h₁).mp hd₁).2
          rw [hc] at hcn
          cases hcn
      | none =>
        cases ha : d.advance t with
        | none =>
          rw [read_of_error he (step_of_refused ha)]
          simp
        | some d₁ =>
          rw [read_cons (step_eq_ok_iff.mpr ⟨hc, ha⟩), Option.bind_some]
          exact ih ((distinct_advance ha).mpr ⟨hd, hc⟩)

/-- Reading goes on behind a run that keeps the names apart. -/
theorem read_append_of_run {d d' : Draft} {us : List Token} (h : d.run us = some d')
    (hd : d'.Distinct) {ts : List Token} : d.read (us ++ ts) = d'.read ts := by
  induction us generalizing d with
  | nil => cases h; rfl
  | cons t us ih =>
    rw [run_cons] at h
    obtain ⟨d₁, h₁, h₂⟩ := Option.bind_eq_some_iff.mp h
    have hc := ((distinct_advance h₁).mp (distinct_of_run h₂ hd)).2
    rw [List.cons_append, read_cons (step_eq_ok_iff.mpr ⟨hc, h₁⟩)]
    exact ih h₂

end Draft

/-- **The tokens of a program, and only they, are parsed**, into the program that the grammar
derives from the tokens before the end, and only if its names are apart. -/
theorem parse_eq_ok_iff_program (ts : List Token) (program : List Module) :
    parse ts = .ok program ↔ Program (Token.beforeEnd ts) program ∧ DistinctNames program := by
  rw [parse, Draft.read_eq_ok_iff Draft.distinct_empty, Draft.run_eq_some_iff]

end Idl
