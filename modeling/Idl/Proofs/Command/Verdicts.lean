import Idl.Command
import Idl.Proofs.Layout.Canonical

/-! # Verdicts

What formatting has to say about a file depends on its text alone. A file is to be replaced if it is
a program without comments that differs from its canonical text (`judge_eq_unsettled_iff`), and what
it is replaced by is as it should be (`judge_of_formatText`). A file has an error exactly if it
gives no program (`isError_judge_eq_false_iff`), which is also what checking looks for.

* `exitCode_formatOutcome_eq_zero_iff`, `exitCode_checkOutcome_eq_zero_iff`: when formatting and
  checking succeed. -/

namespace Idl

/-! ### Canonical texts -/

theorem Layout.formatText_eq_ok_iff {l : Layout} {source text : String} :
    l.formatText source = .ok text ↔
      ∃ program, parseText source = .ok program ∧ l.format program = text := by
  unfold formatText
  cases parseText source with
  | error e => simp [Except.map]
  | ok program => simp [Except.map]

theorem hasComments_format {source : String} {program : List Module}
    (h : parseText source = .ok program) (l : Layout) : hasComments (l.format program) = false := by
  obtain ⟨scan, hscan, -, hcomments⟩ := l.ofText_format (wellFormed_of_parseText h).modules
  simp [hasComments, hscan, hcomments]

theorem hasComments_iff {source : String} :
    hasComments source = true ↔ ∃ scan, Scan.ofText source = .ok scan ∧ scan.comments ≠ [] := by
  unfold hasComments
  rcases Scan.ofText source with e | scan
  · simp
  · simp

/-! ### Verdicts -/

/-- **A file is to be replaced** if it is a program without comments and differs from its canonical
text. -/
theorem judge_eq_unsettled_iff {loaded : Except LoadError String} {source formatted : String} :
    judge loaded = .unsettled source formatted ↔ loaded = .ok source ∧
      Layout.standard.formatText source = .ok formatted ∧ hasComments source = false ∧
      source ≠ formatted := by
  unfold judge
  rcases loaded with e | text
  · simp
  · rcases hf : Layout.standard.formatText text with e | canonical
    · simp only [hf, reduceCtorEq, Except.ok.injEq, false_iff]
      rintro ⟨rfl, h, -⟩
      rw [hf] at h
      cases h
    · simp only [hf, Except.ok.injEq]
      by_cases hc : hasComments text = true
      · rw [if_pos hc]
        simp only [reduceCtorEq, false_iff]
        rintro ⟨rfl, -, hn, -⟩
        rw [hc] at hn
        cases hn
      · rw [if_neg hc]
        by_cases he : text = canonical
        · rw [if_pos he]
          simp only [reduceCtorEq, false_iff]
          rintro ⟨rfl, h, -, hne⟩
          rw [hf] at h
          exact hne (he.trans (Except.ok.inj h))
        · rw [if_neg he, Verdict.unsettled.injEq]
          constructor
          · rintro ⟨rfl, rfl⟩
            exact ⟨rfl, hf, by simpa using hc, he⟩
          · rintro ⟨rfl, h, -, -⟩
            rw [hf] at h
            exact ⟨rfl, Except.ok.inj h⟩

theorem judge_eq_settled_iff {loaded : Except LoadError String} :
    judge loaded = .settled ↔ ∃ source, loaded = .ok source ∧ hasComments source = false ∧
      Layout.standard.formatText source = .ok source := by
  unfold judge
  rcases loaded with e | text
  · simp
  · rcases hf : Layout.standard.formatText text with e | canonical
    · simp only [hf, reduceCtorEq, Except.ok.injEq, false_iff]
      rintro ⟨_, rfl, -, h⟩
      rw [hf] at h
      cases h
    · simp only [hf, Except.ok.injEq]
      by_cases hc : hasComments text = true
      · rw [if_pos hc]
        simp [hc]
      · by_cases he : text = canonical
        · rw [if_neg hc, if_pos he]
          refine iff_of_true rfl ⟨text, rfl, by simpa using hc, ?_⟩
          rw [hf, ← he]
        · rw [if_neg hc, if_neg he]
          simp only [reduceCtorEq, false_iff]
          rintro ⟨_, rfl, -, h⟩
          rw [hf] at h
          exact he (Except.ok.inj h).symm

/-- **A canonical text is as it should be.** -/
theorem judge_of_formatText {source formatted : String}
    (h : Layout.standard.formatText source = .ok formatted) : judge (.ok formatted) = .settled := by
  obtain ⟨program, hp, rfl⟩ := Layout.formatText_eq_ok_iff.mp h
  have hagain := Layout.formatText_format hp .standard .standard
  have hcomments := hasComments_format hp .standard
  simp [judge, hagain, hcomments]

theorem isError_judge_eq_false_iff {loaded : Except LoadError String} :
    (judge loaded).isError = false ↔
      ∃ source program, loaded = .ok source ∧ parseText source = .ok program := by
  rcases loaded with e | text
  · simp [judge, Verdict.isError]
  · rcases hp : parseText text with e | program
    · have hf : Layout.standard.formatText text = .error e := by
        rw [Layout.formatText, hp]
        rfl
      simp [judge, hf, Verdict.isError, hp]
    · have hf := Layout.formatText_of_parseText hp .standard
      refine iff_of_true ?_ ⟨text, program, rfl, hp⟩
      simp only [judge, hf]
      split_ifs <;> rfl

theorem replacement?_eq_some_iff {writes : Bool} {verdict : Verdict} {text : String} :
    verdict.replacement? writes = some text ↔
      writes = true ∧ ∃ source, verdict = .unsettled source text := by
  rcases verdict with _ | _ | _ | _ | ⟨source, formatted⟩
  case unsettled =>
    cases writes <;> simp [Verdict.replacement?]
  all_goals simp [Verdict.replacement?]

/-! ### Outcomes -/

theorem Outcome.exitCode_eq_zero_iff {o : Outcome} : o.exitCode = 0 ↔ o.failure = none := by
  unfold exitCode
  rcases o.failure with _ | message
  · simp
  · simp

/-- **Formatting succeeds** if no file has an error and, where nothing is written, no file is to be
replaced. -/
theorem exitCode_formatOutcome_eq_zero_iff {r : Renderer} {mode : FormatMode}
    {verdicts : List (String × Verdict)} : (formatOutcome r mode verdicts).exitCode = 0 ↔
      (∀ verdict ∈ verdicts, verdict.2.isError = false) ∧
      (mode.writes = false → ∀ verdict ∈ verdicts, verdict.2.isUnsettled = false) := by
  have herrors : ((verdicts.map Prod.snd).filter Verdict.isError).length = 0 ↔
      ∀ verdict ∈ verdicts, verdict.2.isError = false := by
    simp only [List.length_eq_zero_iff, List.filter_eq_nil_iff, List.forall_mem_map,
      Bool.not_eq_true]
  have hunsettled : ((verdicts.map Prod.snd).filter Verdict.isUnsettled).length = 0 ↔
      ∀ verdict ∈ verdicts, verdict.2.isUnsettled = false := by
    simp only [List.length_eq_zero_iff, List.filter_eq_nil_iff, List.forall_mem_map,
      Bool.not_eq_true]
  rw [Outcome.exitCode_eq_zero_iff, ← herrors, ← hunsettled]
  show (formatSummary mode (verdicts.map Prod.snd)).failure = none ↔ _
  unfold formatSummary
  by_cases hw : mode.writes = true
  · simp [hw]
  · by_cases hu : ((verdicts.map Prod.snd).filter Verdict.isUnsettled).length = 0
    · simp [hw, hu]
    · simp [hw, hu]

/-- **Checking succeeds** if every file gives a program. -/
theorem exitCode_checkOutcome_eq_zero_iff {r : Renderer}
    {results : List (String × Except FileError (List Module))} :
    (checkOutcome r results).exitCode = 0 ↔ ∀ result ∈ results, isFailure result.2 = false := by
  have hfailed : (results.filter fun result => isFailure result.2).length = 0 ↔
      ∀ result ∈ results, isFailure result.2 = false := by
    simp only [List.length_eq_zero_iff, List.filter_eq_nil_iff, Bool.not_eq_true]
  rw [Outcome.exitCode_eq_zero_iff, ← hfailed]
  unfold checkOutcome
  by_cases h : (results.filter fun result => isFailure result.2).length = 0
  · simp [h]
  · simp [h]

/-- Checking fails on the files that formatting fails on. -/
theorem isFailure_parseLoaded (path : String) (loaded : Except LoadError String) :
    isFailure (parseLoaded path loaded) = (judge loaded).isError := by
  by_cases h : (judge loaded).isError = true
  · rw [h]
    rcases loaded with e | source
    · rfl
    · rcases hp : parseText source with e | program
      · simp [parseLoaded, hp, Except.mapError, isFailure]
      · have hfalse := isError_judge_eq_false_iff.mpr ⟨source, program, rfl, hp⟩
        rw [h] at hfalse
        cases hfalse
  · rw [Bool.not_eq_true] at h
    obtain ⟨source, program, rfl, hp⟩ := isError_judge_eq_false_iff.mp h
    rw [h]
    simp [parseLoaded, hp, Except.mapError, isFailure]

end Idl
