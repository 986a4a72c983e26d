import Idl.Proofs.Command.Settling
import Mathlib.Algebra.GroupWithZero.Nat

/-! # Checking what was formatted

Formatting some files in place and then only looking at them: the second time nothing is left to
replace (`Workspace.isUnsettled_judge_settleAll`), and an error can have one reason only. A file is
measured before it is loaded, not before it is saved, and a canonical text may be several times as
long as its source. So the second look succeeds exactly if no file has outgrown the limit
(`Workspace.exitCode_recheck`), and one that has is out of reach of the tool that wrote it
(`Workspace.exitCode_recheck_bulky`). -/

namespace Idl

namespace Workspace

/-! ### Errors stay -/

theorem mem_run_survey {w : Workspace} {path : String} {paths : List String} (hp : path ∈ paths)
    (h : ∀ source formatted, judge (w.load path) ≠ .unsettled source formatted) :
    (path, judge (w.load path)) ∈ ((survey store.access true paths).run w).1 := by
  induction paths generalizing w with
  | nil => cases hp
  | cons other later ih =>
    rw [Store.run_survey_cons]
    rcases List.mem_cons.mp hp with rfl | hlater
    · exact List.mem_cons_self
    · have hload : (store.settle w true other).load path = w.load path := load_settleAll h [other]
      rw [← hload] at h ⊢
      exact List.mem_cons_of_mem _ (ih hlater h)

theorem isError_judge_of_exitCode {r : Renderer} {w : Workspace} {paths : List String}
    (h : (w.answer r (.format paths ⟨false, false⟩)).1.exitCode = 0) {path : String}
    (hp : path ∈ paths) : (judge (w.load path)).isError = false := by
  have herrors := (exitCode_formatOutcome_eq_zero_iff.mp h).1
  by_cases hu : ∃ source formatted, judge (w.load path) = .unsettled source formatted
  · obtain ⟨source, formatted, hj⟩ := hu
    rw [hj]
    rfl
  · have hkept : ∀ source formatted, judge (w.load path) ≠ .unsettled source formatted :=
      fun source formatted hj => hu ⟨source, formatted, hj⟩
    exact herrors _ (mem_run_survey hp hkept)

/-! ### The second look -/

/-- Every file that some paths lead to and that changed is still small enough to be loaded. -/
def ChangesFit (before after : Workspace) (paths : List String) : Prop :=
  ∀ path ∈ paths, ∀ contents, after.heldAt? path = some contents →
    before.heldAt? path ≠ some contents → contents.size ≤ maxSourceSize

section SecondLook
variable {w : Workspace} {paths : List String} {path : String} (hp : path ∈ paths)
  (he : (judge (w.load path)).isError = false)
include hp he

/-- What the second look finds: a program that need not be replaced, in the file as it was or in
the canonical text, unless this has become too large. -/
theorem judge_settleAll_cases :
    ((store.settleAll w true paths).heldAt? path = w.heldAt? path ∧
      (store.settleAll w true paths).load path = w.load path ∧
      (judge (w.load path)).isUnsettled = false) ∨
    ∃ formatted, (store.settleAll w true paths).heldAt? path = some (.text formatted) ∧
      w.heldAt? path ≠ some (.text formatted) ∧
      judge ((store.settleAll w true paths).load path) =
        if formatted.utf8ByteSize > maxSourceSize then
          .unreadable (.tooLarge path formatted.utf8ByteSize)
        else .settled := by
  obtain ⟨source, program, hload, hparse⟩ := isError_judge_eq_false_iff.mp he
  obtain ⟨contents, hheld, hsource⟩ := load_eq_ok_iff.mp hload
  have hafter := w.heldAt?_settleAll_of_mem hp
  rw [hheld, Option.map_some] at hafter
  rcases contents.settled_cases with ⟨hkept, hs⟩ | ⟨source', formatted, hsource', hj, hs⟩
  · left
    rw [hs, ← hheld] at hafter
    refine ⟨hafter, load_congr (w.resolve_settleAll true paths path) hafter, ?_⟩
    rw [hload]
    rcases hj : judge (.ok source) with _ | _ | _ | _ | ⟨source', formatted⟩
    case unsettled =>
      obtain rfl := Except.ok.inj (judge_eq_unsettled_iff.mp hj).1
      exact absurd hj (hkept source formatted hsource)
    all_goals rfl
  · right
    have hne := Contents.settled_ne_of_unsettled hsource' hj
    obtain ⟨-, hf, -⟩ := judge_eq_unsettled_iff.mp hj
    rw [hs] at hafter hne
    refine ⟨formatted, hafter, ?_, ?_⟩
    · rw [hheld]
      exact fun h => hne (Option.some.inj h).symm
    · rw [load_of_heldAt?_text hafter]
      by_cases hlarge : formatted.utf8ByteSize > maxSourceSize
      · rw [if_pos hlarge, if_pos hlarge]
        rfl
      · rw [if_neg hlarge, if_neg hlarge]
        exact judge_of_formatText hf

theorem isUnsettled_judge_settleAll :
    (judge ((store.settleAll w true paths).load path)).isUnsettled = false := by
  rcases judge_settleAll_cases hp he with ⟨-, hload, hu⟩ | ⟨formatted, -, -, hj⟩
  · rw [hload]
    exact hu
  · rw [hj]
    split_ifs <;> rfl

theorem isError_judge_settleAll :
    (judge ((store.settleAll w true paths).load path)).isError = false ↔
      ∀ contents, (store.settleAll w true paths).heldAt? path = some contents →
        w.heldAt? path ≠ some contents → contents.size ≤ maxSourceSize := by
  rcases judge_settleAll_cases hp he with ⟨hheld, hload, -⟩ | ⟨formatted, hheld, hne, hj⟩
  · rw [hload, hheld]
    exact iff_of_true he fun contents h hne => absurd h hne
  · rw [hj, hheld]
    constructor
    · intro h contents hcontents _
      obtain rfl := Option.some.inj hcontents
      split_ifs at h with hlarge
      · cases h
      · exact Nat.le_of_not_gt hlarge
    · intro h
      have hsize : formatted.utf8ByteSize ≤ maxSourceSize := h _ rfl hne
      rw [if_neg (Nat.not_lt.mpr hsize)]
      rfl

end SecondLook

/-- **What was formatted passes every check, unless it has outgrown the limit.** Where formatting in
place succeeds, looking at the same files afterwards finds nothing to replace, and both this and
checking them succeed exactly if every file that changed is small enough to be loaded. Such a file
is loaded and is a program. -/
theorem exitCode_recheck {r : Renderer} {w : Workspace} {paths : List String}
    (h : (w.answer r (.format paths ⟨false, false⟩)).1.exitCode = 0) :
    let after := (w.answer r (.format paths ⟨false, false⟩)).2
    ((after.answer r (.format paths ⟨true, false⟩)).1.exitCode = 0 ↔
      w.ChangesFit after paths) ∧
    ((after.answer r (.check paths)).1.exitCode = 0 ↔ w.ChangesFit after paths) ∧
    ∀ path ∈ paths, ∀ contents, after.heldAt? path = some contents →
      w.heldAt? path ≠ some contents → contents.size ≤ maxSourceSize →
        ∃ source program, after.load path = .ok source ∧ parseText source = .ok program := by
  intro after
  have hafter : after = store.settleAll w true paths := store.run_survey_snd w true paths
  have hfit : (∀ path ∈ paths, (judge (after.load path)).isError = false) ↔
      w.ChangesFit after paths := by
    rw [hafter]
    exact forall₂_congr fun path hp =>
      isError_judge_settleAll hp (isError_judge_of_exitCode h hp)
  refine ⟨?_, ?_, ?_⟩
  · rw [← hfit, answer, store.answer_format_of_not_writes _ _ _ rfl,
      exitCode_formatOutcome_eq_zero_iff, List.forall_mem_map, List.forall_mem_map]
    refine and_iff_left fun _ path hp => ?_
    rw [hafter]
    exact isUnsettled_judge_settleAll hp (isError_judge_of_exitCode h hp)
  · rw [← hfit, answer, Store.answer_check, exitCode_checkOutcome_eq_zero_iff, List.forall_mem_map]
    simp only [isFailure_parseLoaded, store_load]
  · intro path hp contents hheld hne hsize
    refine isError_judge_eq_false_iff.mp ?_
    have hiff := isError_judge_settleAll hp (isError_judge_of_exitCode h hp)
    rw [hafter] at hheld ⊢
    refine hiff.mpr fun contents' hheld' _ => ?_
    obtain rfl := Option.some.inj (hheld.symm.trans hheld')
    exact hsize

/-- A workspace with a program that is not laid out, one that is commented, and both once more. -/
theorem exitCode_recheck_pair :
    let w : Workspace :=
      ⟨[(["a"], .text "module M\x7b\x7d"), (["b"], .text "module M\x7b\x7d // kept")], []⟩
    let paths := ["a", "b", "./a", "b"]
    let after := (w.answer .plain (.format paths ⟨false, false⟩)).2
    (w.answer .plain (.format paths ⟨false, false⟩)).1.exitCode = 0 ∧
      after.heldAt? "a" = some (.text "module M \x7b\x7d\n") ∧
      (after.answer .plain (.format paths ⟨true, false⟩)).1.exitCode = 0 ∧
      (after.answer .plain (.check paths)).1.exitCode = 0 := by
  intro w paths after
  have h : (w.answer .plain (.format paths ⟨false, false⟩)).1.exitCode = 0 := by decide +kernel
  have hheld : paths.map after.heldAt? =
      [some (.text "module M \x7b\x7d\n"), some (.text "module M\x7b\x7d // kept"),
        some (.text "module M \x7b\x7d\n"), some (.text "module M\x7b\x7d // kept")] := by
    decide +kernel
  have hfits : w.ChangesFit after paths := by
    intro path hp contents hcontents _
    have hmem : some contents ∈ paths.map after.heldAt? := List.mem_map.mpr ⟨path, hp, hcontents⟩
    rw [hheld] at hmem
    have hall : ∀ held ∈ [some (Contents.text "module M \x7b\x7d\n"),
        some (.text "module M\x7b\x7d // kept"), some (.text "module M \x7b\x7d\n"),
        some (.text "module M\x7b\x7d // kept")], ∀ contents ∈ held,
          contents.size ≤ maxSourceSize := by decide +kernel
    exact hall _ hmem contents rfl
  obtain ⟨hformat, hcheck, -⟩ := exitCode_recheck h
  exact ⟨h, by decide +kernel, hformat.mpr hfits, hcheck.mpr hfits⟩

end Workspace

/-! ### A file that outgrows the limit -/

/-- A module whose only interface has a number of annotations. -/
def bulky (n : Nat) : List Module :=
  [⟨"M", [.ofGroups "I" [] [] (List.replicate n ⟨"a", none, .nowhere⟩) .nowhere], [], .nowhere⟩]

theorem wellFormed_bulky (n : Nat) : WellFormed (bulky n) := by
  have hmodule : IsName "M" := by decide
  have hinterface : IsName "I" := by decide
  have htag : (⟨"a", none, .nowhere⟩ : Annotation).WellFormed := by decide
  refine ⟨fun m hm => ?_, ?_⟩
  · obtain rfl := List.mem_singleton.mp hm
    refine ⟨hmodule, fun i hi => ?_, fun a ha => absurd ha List.not_mem_nil⟩
    obtain rfl := List.mem_singleton.mp hi
    refine ⟨.groups .., hinterface, fun a ha => absurd ha List.not_mem_nil,
      fun b hb => absurd hb List.not_mem_nil, fun a ha => ?_⟩
    obtain rfl := List.eq_of_mem_replicate ha
    exact htag
  · refine ⟨List.nodup_singleton _, fun m hm => ?_⟩
    obtain rfl := List.mem_singleton.mp hm
    refine ⟨List.nodup_singleton _, fun i hi => ?_⟩
    obtain rfl := List.mem_singleton.mp hi
    exact List.nodup_nil

namespace Layout

theorem utf8ByteSize_render (l : Layout) (lines : List Line) :
    (l.render lines).utf8ByteSize = (lines.map fun line => (l.lineText line).utf8ByteSize).sum := by
  unfold render
  induction lines with
  | nil => rfl
  | cons line later ih =>
    rw [List.map_cons, String.join_cons, String.utf8ByteSize_append, ih, List.map_cons,
      List.sum_cons]

theorem lines_bulky (l : Layout) (n : Nat) :
    l.lines (bulky n) = .entry 0 "module M \x7b" :: (List.replicate n (.entry 1 "@a") ++
      [.entry 1 "interface I \x7b\x7d", .entry 0 "\x7d"]) := by
  have ha : annotationLines 1 (List.replicate n ⟨"a", none, .nowhere⟩) =
      List.replicate n (.entry 1 "@a") := by
    unfold annotationLines
    rw [List.map_replicate]
    rfl
  have hi : l.interfaceLines 1 (.ofGroups "I" [] []
      (List.replicate n ⟨"a", none, .nowhere⟩) .nowhere) =
      List.replicate n (.entry 1 "@a") ++ [.entry 1 "interface I \x7b\x7d"] :=
    congrArg (· ++ [Line.entry 1 "interface I \x7b\x7d"]) ha
  show block 0 "module M" (l.interfaceLines 1 _) = _
  rw [hi]
  unfold block
  rw [if_neg (by simp)]
  simp

/-- The more a layout indents, the larger is the text. -/
theorem utf8ByteSize_format_bulky (l : Layout) (n : Nat) :
    (l.format (bulky n)).utf8ByteSize =
      (l.lineText (.entry 0 "module M \x7b")).utf8ByteSize +
      (n * (l.lineText (.entry 1 "@a")).utf8ByteSize +
        ((l.lineText (.entry 1 "interface I \x7b\x7d")).utf8ByteSize +
          (l.lineText (.entry 0 "\x7d")).utf8ByteSize)) := by
  unfold format
  rw [utf8ByteSize_render, lines_bulky]
  simp

end Layout

theorem judge_format {program : List Module} (h : WellFormed program) {l : Layout}
    (hne : l.format program ≠ Layout.standard.format program) :
    judge (.ok (l.format program)) =
      .unsettled (l.format program) (Layout.standard.format program) := by
  obtain ⟨scan, hscan, hkinds, hcomments⟩ := l.ofText_format h.modules
  obtain ⟨again, hparse, he⟩ := exists_parse_of_kinds l h hkinds
  have hformat : Layout.standard.formatText (l.format program) =
      .ok (Layout.standard.format program) := by
    have hread : parseText (l.format program) = .ok again :=
      parseText_eq_ok_iff.mpr ⟨scan, hscan, hparse⟩
    rw [Layout.formatText_of_parseText hread, ← Layout.format_eraseSpans _ again, he,
      Layout.format_eraseSpans]
  refine judge_eq_unsettled_iff.mpr ⟨rfl, hformat, ?_, hne⟩
  simp [hasComments, hscan, hcomments]

namespace Workspace

/-- **A file with a canonical text that is too large** is formatted without a complaint and cannot
be loaded any more. -/
theorem load_answer_of_large (r : Renderer) {w : Workspace} {path source formatted : String}
    (hheld : w.heldAt? path = some (.text source)) (hsmall : source.utf8ByteSize ≤ maxSourceSize)
    (hj : judge (.ok source) = .unsettled source formatted)
    (hlarge : maxSourceSize < formatted.utf8ByteSize) :
    (w.answer r (.format [path] ⟨false, false⟩)).1.exitCode = 0 ∧
      (w.answer r (.format [path] ⟨false, false⟩)).2.load path =
        .error (.tooLarge path formatted.utf8ByteSize) := by
  have hsource : (Contents.text source).source? = some source :=
    Contents.source?_eq_some_iff.mpr ⟨hsmall, rfl⟩
  have hload : w.load path = .ok source := load_eq_ok_iff.mpr ⟨_, hheld, hsource⟩
  constructor
  · refine exitCode_formatOutcome_eq_zero_iff.mpr ⟨fun verdict hv => ?_, fun hw => ?_⟩
    · obtain rfl := List.mem_singleton.mp hv
      rw [store_load, hload, hj]
      rfl
    · cases hw
  · have hafter : (w.answer r (.format [path] ⟨false, false⟩)).2 = store.settleAll w true [path] :=
      store.run_survey_snd w true [path]
    have hheld' : (store.settleAll w true [path]).heldAt? path = some (.text formatted) := by
      rw [w.heldAt?_settleAll_of_mem List.mem_cons_self, hheld, Option.map_some,
        Contents.settled_of_unsettled hsource hj]
    rw [hafter, load_of_heldAt?_text hheld', if_pos hlarge]

/-- Fifteen million annotations at the margin are forty-five million bytes. Indented they are a
hundred and five million, which is more than can be loaded: formatting in place succeeds, and
neither a second look nor a check does. -/
theorem exitCode_recheck_bulky :
    let w : Workspace :=
      ⟨[(["a"], .text (Layout.format ⟨0, 0, false⟩ (bulky 15000000)))], []⟩
    let after := (w.answer .plain (.format ["a"] ⟨false, false⟩)).2
    (w.answer .plain (.format ["a"] ⟨false, false⟩)).1.exitCode = 0 ∧
      (after.answer .plain (.format ["a"] ⟨true, false⟩)).1.exitCode = 1 ∧
      (after.answer .plain (.check ["a"])).1.exitCode = 1 ∧
      after.load "a" = .error (.tooLarge "a" 105000032) := by
  intro w after
  have hsource : (Layout.format ⟨0, 0, false⟩ (bulky 15000000)).utf8ByteSize = 45000028 := by
    rw [Layout.utf8ByteSize_format_bulky]
    decide +kernel
  have hformatted : (Layout.standard.format (bulky 15000000)).utf8ByteSize = 105000032 := by
    rw [Layout.utf8ByteSize_format_bulky]
    decide +kernel
  have hne : Layout.format ⟨0, 0, false⟩ (bulky 15000000) ≠
      Layout.standard.format (bulky 15000000) := by
    intro h
    rw [h, hformatted] at hsource
    omega
  have hheld : w.heldAt? "a" = some (.text (Layout.format ⟨0, 0, false⟩ (bulky 15000000))) := rfl
  obtain ⟨hexit, hload⟩ := load_answer_of_large .plain hheld (by rw [hsource]; decide)
    (judge_format (wellFormed_bulky 15000000) hne) (by rw [hformatted]; decide)
  rw [hformatted] at hload
  refine ⟨hexit, ?_, ?_, hload⟩
  · rw [answer, store.answer_format_of_not_writes _ _ _ rfl, List.map_singleton, store_load,
      hload]
    rfl
  · rw [answer, Store.answer_check, List.map_singleton, store_load, hload]
    rfl

end Workspace

end Idl
