import Idl.Proofs.Command.Settling

/-! # What a look foretells

Formatting either replaces files or only looks at them, and says which ones are to be replaced or
shows how they would change. Replacing a file changes what is loaded behind it, but only through a
path that leads to the same file. Where no two paths do, every mode comes to the same verdicts
(`Workspace.answer_fst_of_apart`), and these tell which files will change
(`Workspace.changedBy_eq_filter`).

* `Workspace.format_foretold`: what the modes print, and when looking succeeds. -/

namespace Idl

/-! ### What is told about one file -/

theorem stderr_formatLine (r : Renderer) (mode mode' : FormatMode) (path : String)
    (verdict : Verdict) :
    (formatLine r mode path verdict).stderr = (formatLine r mode' path verdict).stderr := by
  rcases verdict with _ | _ | _ | _ | _ <;> rfl

theorem stdout_formatLine_of_not_unsettled {verdict : Verdict} (h : verdict.isUnsettled = false)
    (r : Renderer) (mode : FormatMode) (path : String) :
    (formatLine r mode path verdict).stdout = "" := by
  rcases verdict with _ | _ | _ | _ | ⟨source, formatted⟩
  case unsettled => cases h
  all_goals rfl

namespace Workspace

/-! ### Paths that are apart -/

/-- No two of some paths lead to the same file. -/
def Apart (w : Workspace) (paths : List String) : Prop :=
  paths.Pairwise fun path other => w.fileAt? path = none ∨ w.fileAt? path ≠ w.fileAt? other

instance (w : Workspace) (paths : List String) : Decidable (w.Apart paths) :=
  inferInstanceAs (Decidable (paths.Pairwise _))

theorem load_settle_of_apart {w : Workspace} {other path : String}
    (h : w.fileAt? other = none ∨ w.fileAt? other ≠ w.fileAt? path) :
    (store.settle w true other).load path = w.load path := by
  refine load_congr (w.resolve_settle true other path) ?_
  rw [heldAt?_settle]
  split_ifs with hsame
  · rcases h with hnone | hne
    · have hheld : w.heldAt? path = none := by
        unfold heldAt?
        rw [← hsame, hnone]
        rfl
      rw [hheld]
      rfl
    · exact absurd hsame hne
  · rfl

/-- **Where paths are apart, each file is judged as it stands**, whatever is written. -/
theorem run_survey_of_apart {w : Workspace} {paths : List String} (h : w.Apart paths) :
    ((survey store.access true paths).run w).1 =
      paths.map fun path => (path, judge (w.load path)) := by
  induction paths generalizing w with
  | nil => rfl
  | cons path later ih =>
    obtain ⟨hfirst, hlater⟩ := List.pairwise_cons.mp h
    have hapart : (store.settle w true path).Apart later := by
      unfold Apart
      simp only [fileAt?_settle]
      exact hlater
    rw [Store.run_survey_cons, ih hapart, List.map_cons]
    refine congrArg (_ :: ·) (List.map_congr_left fun other ho => ?_)
    rw [load_settle_of_apart (hfirst other ho)]

/-- **Every mode tells about the same verdicts.** -/
theorem answer_fst_of_apart {w : Workspace} {paths : List String} (h : w.Apart paths) (r : Renderer)
    (mode : FormatMode) :
    (w.answer r (.format paths mode)).1 =
      formatOutcome r mode (paths.map fun path => (path, judge (w.load path))) := by
  rcases hw : mode.writes with _ | _
  · rw [answer, store.answer_format_of_not_writes r w paths hw]
    rfl
  · rw [answer, Store.answer_format, hw, run_survey_of_apart h]

/-! ### The files that change -/

/-- The paths whose files formatting in place changes. -/
def changedBy (w : Workspace) (r : Renderer) (paths : List String) : List String :=
  paths.filter fun path =>
    (w.answer r (.format paths ⟨false, false⟩)).2.heldAt? path ≠ w.heldAt? path

theorem map_settled_ne_iff {w : Workspace} {path : String} :
    (w.heldAt? path).map Contents.settled ≠ w.heldAt? path ↔
      (judge (w.load path)).isUnsettled = true := by
  constructor
  · intro h
    rcases hheld : w.heldAt? path with _ | contents
    · rw [hheld] at h
      exact absurd rfl h
    · rw [hheld, Option.map_some] at h
      rcases contents.settled_cases with ⟨-, hs⟩ | ⟨source, formatted, hsource, hj, -⟩
      · rw [hs] at h
        exact absurd rfl h
      · rw [load_eq_ok_iff.mpr ⟨contents, hheld, hsource⟩, hj]
        rfl
  · intro h
    rcases hj : judge (w.load path) with _ | _ | _ | _ | ⟨source, formatted⟩
    case unsettled =>
      have hload := (judge_eq_unsettled_iff.mp hj).1
      obtain ⟨contents, hheld, hsource⟩ := load_eq_ok_iff.mp hload
      rw [hload] at hj
      rw [hheld, Option.map_some]
      exact fun he => Contents.settled_ne_of_unsettled hsource hj (Option.some.inj he)
    all_goals
      rw [hj] at h
      cases h

theorem changedBy_eq_filter (w : Workspace) (r : Renderer) (paths : List String) :
    w.changedBy r paths = paths.filter fun path => (judge (w.load path)).isUnsettled := by
  refine List.filter_congr fun path hp => ?_
  have hafter : (w.answer r (.format paths ⟨false, false⟩)).2 = store.settleAll w true paths :=
    store.run_survey_snd w true paths
  rw [hafter, w.heldAt?_settleAll_of_mem hp, Bool.eq_iff_iff, decide_eq_true_iff]
  exact map_settled_ne_iff

/-! ### What is told about many files -/

theorem join_filter (keep : String → Bool) (line : String → String) (paths : List String) :
    String.join (paths.map fun path => if keep path then line path else "") =
      String.join ((paths.filter keep).map line) := by
  induction paths with
  | nil => rfl
  | cons path later ih =>
    rw [List.map_cons, String.join_cons, ih]
    by_cases hkeep : keep path = true
    · rw [if_pos hkeep, List.filter_cons_of_pos hkeep, List.map_cons, String.join_cons]
    · rw [if_neg hkeep, List.filter_cons_of_neg hkeep, String.empty_append]

theorem join_stdout_eq (w : Workspace) (r : Renderer) (paths : List String) (mode : FormatMode) :
    String.join (paths.map fun path => (formatLine r mode path (judge (w.load path))).stdout) =
      String.join ((w.changedBy r paths).map fun path =>
        (formatLine r mode path (judge (w.load path))).stdout) := by
  rw [changedBy_eq_filter, ← join_filter]
  refine congrArg String.join (List.map_congr_left fun path _ => ?_)
  by_cases hu : (judge (w.load path)).isUnsettled = true
  · rw [if_pos hu]
  · rw [if_neg hu, stdout_formatLine_of_not_unsettled (Bool.eq_false_iff.mpr hu)]

/-- The paths whose files are passed over for their comments. -/
def skippedOf (w : Workspace) (paths : List String) : List String :=
  paths.filter fun path => judge (w.load path) = .commented

/-- Whether a path leads to a text without comments that is its own canonical text. -/
def isSettledAt (w : Workspace) (path : String) : Bool :=
  match w.load path with
  | .error _ => false
  | .ok source =>
    match Scan.ofText source, Layout.standard.formatText source with
    | .ok scan, .ok formatted => scan.comments.isEmpty && formatted = source
    | _, _ => false

/-- The edits that formatting would make to the file that a path leads to. -/
def editsAt (w : Workspace) (path : String) : String :=
  match w.load path with
  | .ok source => editText source
  | .error _ => ""

/-- The last line of a look that finds nothing to replace. -/
def nothingToDo (w : Workspace) (paths : List String) : String :=
  outputLine ("✓ " ++ (paths.filter w.isSettledAt).length.repr ++ " file(s) already formatted, " ++
    (w.skippedOf paths).length.repr ++ " skipped")

/-- **What a look foretells.** The three modes are saying which files are to be replaced, showing
how they would change, and replacing them. -/
structure Foretold (w : Workspace) (r : Renderer) (paths : List String) : Prop where
  /-- The first mode names the files that would change, in order. -/
  named : (w.answer r (.format paths ⟨true, false⟩)).1.stdout =
    String.join ((w.changedBy r paths).map fun path => outputLine ("Would reformat: " ++ path)) ++
      if (w.answer r (.format paths ⟨true, false⟩)).1.exitCode = 0 then w.nothingToDo paths else ""
  /-- The second mode shows the edits of the same files. -/
  shown : (w.answer r (.format paths ⟨false, true⟩)).1.stdout =
    String.join ((w.changedBy r paths).map fun path =>
        outputLine ("--- " ++ path) ++ outputLine (w.editsAt path)) ++
      if (w.answer r (.format paths ⟨false, true⟩)).1.exitCode = 0 then w.nothingToDo paths else ""
  /-- The third mode reports the same files. -/
  reported : (w.answer r (.format paths ⟨false, false⟩)).1.stdout =
    String.join ((w.changedBy r paths).map fun path => outputLine ("Formatted: " ++ path)) ++
      ("\n" ++ outputLine ("✓ " ++ (w.changedBy r paths).length.repr ++ " file(s) formatted, " ++
        (w.skippedOf paths).length.repr ++ " skipped, " ++
        (paths.filter fun path => (judge (w.load path)).isError).length.repr ++ " error(s)"))
  /-- Files that are passed over and files with errors are reported alike in all modes. -/
  complained : ∀ mode mode', (w.answer r (.format paths mode)).1.stderr =
    (w.answer r (.format paths mode')).1.stderr
  /-- A look succeeds if nothing would change and every file gives a program. -/
  succeeds : ∀ mode, mode.writes = false →
    ((w.answer r (.format paths mode)).1.exitCode = 0 ↔ w.changedBy r paths = [] ∧
      ∀ path ∈ paths, ∃ source program, w.load path = .ok source ∧ parseText source = .ok program)
  /-- The message of a failure counts the files that would change. -/
  counted : w.changedBy r paths ≠ [] →
    (w.answer r (.format paths ⟨true, false⟩)).1.failure =
      some ("\n" ++ (w.changedBy r paths).length.repr ++ " file(s) would be reformatted") ∧
    (w.answer r (.format paths ⟨false, true⟩)).1.failure =
      some ("\n" ++ (w.changedBy r paths).length.repr ++ " file(s) need formatting")
  /-- The files that are passed over are some of those that were named. -/
  skipped_le : (w.skippedOf paths).length ≤ paths.length
  /-- Where a look succeeds, all other files are their own canonical texts. -/
  settled_add_skipped : ∀ mode, mode.writes = false →
    (w.answer r (.format paths mode)).1.exitCode = 0 →
      (paths.filter w.isSettledAt).length = paths.length - (w.skippedOf paths).length

/-! ### A look -/

theorem verdict_counts (w : Workspace) (r : Renderer) (paths : List String) :
    let verdicts := (paths.map fun path => (path, judge (w.load path))).map Prod.snd
    (verdicts.filter Verdict.isUnsettled).length = (w.changedBy r paths).length ∧
      (verdicts.filter fun verdict => verdict = .commented).length =
        (w.skippedOf paths).length ∧
      (verdicts.filter Verdict.isError).length =
        (paths.filter fun path => (judge (w.load path)).isError).length := by
  intro verdicts
  have hcount : ∀ p : Verdict → Bool,
      (verdicts.filter p).length = (paths.filter fun path => p (judge (w.load path))).length := by
    intro p
    show (((paths.map _).map Prod.snd).filter p).length = _
    rw [List.map_map, List.filter_map, List.length_map]
    rfl
  refine ⟨?_, hcount _, hcount _⟩
  rw [changedBy_eq_filter]
  exact hcount _

theorem exitCode_look_eq_zero_iff (w : Workspace) (r : Renderer) (paths : List String)
    {mode : FormatMode} (hw : mode.writes = false) :
    (w.answer r (.format paths mode)).1.exitCode = 0 ↔ w.changedBy r paths = [] ∧
      ∀ path ∈ paths, ∃ source program, w.load path = .ok source ∧
        parseText source = .ok program := by
  rw [answer, store.answer_format_of_not_writes r w paths hw, exitCode_formatOutcome_eq_zero_iff,
    List.forall_mem_map, List.forall_mem_map, changedBy_eq_filter, List.filter_eq_nil_iff, and_comm]
  simp only [hw, forall_const, Bool.not_eq_true, isError_judge_eq_false_iff, store_load]

theorem isSettledAt_eq (w : Workspace) (path : String) :
    w.isSettledAt path = decide (judge (w.load path) = .settled) := by
  rw [Bool.eq_iff_iff, decide_eq_true_iff, judge_eq_settled_iff]
  unfold isSettledAt
  rcases w.load path with e | source
  · simp
  · rcases hs : Scan.ofText source with e | scan
    · have hf : Layout.standard.formatText source = .error (.lex e) := by
        simp [Layout.formatText, parseText, hs, Except.map]
      simp [hs, hf]
    · rcases hf : Layout.standard.formatText source with e | formatted
      · simp [hs, hf]
      · simp [hs, hf, hasComments]

/-- **Where a look succeeds**, the files that are not passed over are their own canonical texts. -/
theorem length_filter_isSettledAt {w : Workspace} {r : Renderer} {paths : List String}
    {mode : FormatMode} (hw : mode.writes = false)
    (h : (w.answer r (.format paths mode)).1.exitCode = 0) :
    (paths.filter w.isSettledAt).length = paths.length - (w.skippedOf paths).length := by
  obtain ⟨hchanged, hprograms⟩ := (w.exitCode_look_eq_zero_iff r paths hw).mp h
  rw [changedBy_eq_filter, List.filter_eq_nil_iff] at hchanged
  have hrest : paths.filter w.isSettledAt =
      paths.filter fun path => !decide (judge (w.load path) = .commented) := by
    refine List.filter_congr fun path hp => ?_
    have hunsettled := hchanged path hp
    have herror := isError_judge_eq_false_iff.mpr (hprograms path hp)
    rw [isSettledAt_eq]
    rcases hj : judge (w.load path) with _ | _ | _ | _ | ⟨source, formatted⟩
    case commented => rfl
    case settled => rfl
    case unsettled =>
      rw [hj] at hunsettled
      exact absurd rfl hunsettled
    all_goals
      rw [hj] at herror
      cases herror
  have hall := List.length_eq_length_filter_add (l := paths)
    fun path => decide (judge (w.load path) = .commented)
  rw [hrest]
  unfold skippedOf
  omega

theorem stdout_formatSummary_look {w : Workspace} (r : Renderer) {paths : List String}
    {mode : FormatMode} (hw : mode.writes = false) :
    (formatSummary mode ((paths.map fun path => (path, judge (w.load path))).map Prod.snd)).stdout =
      if (w.answer r (.format paths mode)).1.exitCode = 0 then w.nothingToDo paths else "" := by
  obtain ⟨hchanged, hskipped, herrors⟩ := w.verdict_counts r paths
  have hiff := w.exitCode_look_eq_zero_iff r paths hw
  have herror : (∀ path ∈ paths, ∃ source program, w.load path = .ok source ∧
      parseText source = .ok program) ↔
      (paths.filter fun path => (judge (w.load path)).isError).length = 0 := by
    simp only [List.length_eq_zero_iff, List.filter_eq_nil_iff, Bool.not_eq_true,
      isError_judge_eq_false_iff]
  rw [herror] at hiff
  unfold formatSummary
  rw [hw, if_neg Bool.false_ne_true, hchanged, hskipped, herrors]
  by_cases hnone : w.changedBy r paths = []
  · by_cases hzero : (paths.filter fun path => (judge (w.load path)).isError).length = 0
    · have hexit := hiff.mpr ⟨hnone, hzero⟩
      have hcount := length_filter_isSettledAt hw hexit
      simp only [hexit, hnone, hzero, List.length_nil, List.length_map, ne_eq, not_true_eq_false,
        if_true, if_false, ← hcount]
      rfl
    · have hexit : ¬ (w.answer r (.format paths mode)).1.exitCode = 0 :=
        fun h => hzero (hiff.mp h).2
      simp only [hexit, hnone, hzero, List.length_nil, ne_eq, not_true_eq_false, if_false]
  · have hexit : ¬ (w.answer r (.format paths mode)).1.exitCode = 0 :=
      fun h => hnone (hiff.mp h).1
    have hsome : (w.changedBy r paths).length ≠ 0 := fun h => hnone (List.length_eq_zero_iff.mp h)
    rw [if_neg hexit, if_pos hsome]

theorem failure_look {w : Workspace} {r : Renderer} {paths : List String} {mode : FormatMode}
    (hw : mode.writes = false) (h : w.changedBy r paths ≠ []) :
    (w.answer r (.format paths mode)).1.failure =
      some ("\n" ++ (w.changedBy r paths).length.repr ++
        if mode.diff then " file(s) need formatting" else " file(s) would be reformatted") := by
  obtain ⟨hchanged, -, -⟩ := w.verdict_counts r paths
  have hsome : (w.changedBy r paths).length ≠ 0 := fun hzero => h (List.length_eq_zero_iff.mp hzero)
  rw [answer, store.answer_format_of_not_writes r w paths hw]
  show (formatSummary mode ((paths.map fun path => (path, judge (w.load path))).map
    Prod.snd)).failure = _
  unfold formatSummary
  rw [hw, if_neg Bool.false_ne_true, hchanged, if_pos hsome]

/-- What is told in a mode: the lines about the files that change, and a last one. -/
theorem stdout_answer_of_apart {w : Workspace} {paths : List String} (h : w.Apart paths)
    {r : Renderer} {mode : FormatMode} {line : String → String}
    (hline : ∀ path source formatted, judge (w.load path) = .unsettled source formatted →
      (formatLine r mode path (.unsettled source formatted)).stdout = line path) :
    (w.answer r (.format paths mode)).1.stdout =
      String.join ((w.changedBy r paths).map line) ++
        (formatSummary mode
          ((paths.map fun path => (path, judge (w.load path))).map Prod.snd)).stdout := by
  have hlines : (w.changedBy r paths).map (fun path =>
      (formatLine r mode path (judge (w.load path))).stdout) = (w.changedBy r paths).map line := by
    refine List.map_congr_left fun path hp => ?_
    rw [changedBy_eq_filter] at hp
    have hu := (List.mem_filter.mp hp).2
    rcases hj : judge (w.load path) with _ | _ | _ | _ | ⟨source, formatted⟩
    case unsettled => exact hline path source formatted hj
    all_goals
      rw [hj] at hu
      cases hu
  rw [answer_fst_of_apart h]
  show String.join (((paths.map fun path => (path, judge (w.load path))).map fun verdict =>
    formatLine r mode verdict.1 verdict.2).map Outcome.stdout) ++ _ = _
  rw [List.map_map, List.map_map]
  exact congrArg (· ++ _) ((w.join_stdout_eq r paths mode).trans (congrArg String.join hlines))

/-- **Looking foretells what formatting does**, on paths that are apart: the files that one mode
names, another shows and the third reports are those that change, in the same order; what is passed
over and what is wrong is the same; and a look succeeds exactly if nothing would change and nothing
is wrong, having counted the files that are as they should be. -/
theorem format_foretold (r : Renderer) {w : Workspace} {paths : List String} (h : w.Apart paths) :
    w.Foretold r paths where
  named := by
    rw [← stdout_formatSummary_look r rfl]
    refine stdout_answer_of_apart h fun path source formatted _ => ?_
    simp [formatLine, FormatMode.writes]
  shown := by
    rw [← stdout_formatSummary_look r rfl]
    refine stdout_answer_of_apart h fun path source formatted hj => ?_
    have hload := (judge_eq_unsettled_iff.mp hj).1
    simp [formatLine, FormatMode.writes, editsAt, hload]
  reported := by
    obtain ⟨hchanged, hskipped, herrors⟩ := w.verdict_counts r paths
    rw [← hchanged, ← hskipped, ← herrors]
    refine stdout_answer_of_apart h fun path source formatted _ => ?_
    simp [formatLine, FormatMode.writes]
  complained mode mode' := by
    rw [answer_fst_of_apart h, answer_fst_of_apart h]
    refine congrArg String.join ?_
    simp only [List.map_map]
    exact List.map_congr_left fun path _ => stderr_formatLine r mode mode' path _
  succeeds mode hw := w.exitCode_look_eq_zero_iff r paths hw
  counted hsome := ⟨failure_look rfl hsome, failure_look rfl hsome⟩
  skipped_le := List.length_filter_le _ _
  settled_add_skipped mode hw := length_filter_isSettledAt hw

/-- A program to be laid out, one with a comment, one that is laid out, a file that is none, a path
that leads nowhere and a program behind it. -/
theorem format_foretold_mixed :
    let w : Workspace :=
      ⟨[(["a"], .text "module A\x7b\x7d"), (["b"], .text "// kept\nmodule B\x7b\x7d"),
        (["c"], .text "module C \x7b\x7d\n"), (["d"], .text "module \x7b"),
        (["s", "e"], .text " module E \x7b\x7d\n")], [["s"]]⟩
    let paths := ["a", "b", "c", "d", "missing", "missing", "s/../s//e"]
    let drawing := "gidl::parse::unexpected_token\n\n" ++
      "  × unexpected token: expected module name, found '\x7b'\n" ++
      "   ╭─[d:1:8]\n" ++
      " 1 │ module \x7b\n" ++
      "   ·        ┬\n" ++
      "   ·        ╰── expected module name\n" ++
      "   ╰────\n"
    let r : Renderer :=
      { Renderer.plain with
        draw := fun path source _ =>
          if path = "d" ∧ source = "module \x7b" then some drawing else none }
    w.Apart paths ∧ w.changedBy r paths = ["a", "s/../s//e"] ∧ w.Foretold r paths ∧
      (w.answer r (.format paths ⟨true, false⟩)).1.stderr =
        "Skipped b: formatting would remove its comments\n" ++ drawing ++ "\n" ++
        "Cannot access file 'missing': No such file or directory (os error 2)\n" ++
        "Cannot access file 'missing': No such file or directory (os error 2)\n" := by
  intro w paths drawing r
  have h : w.Apart paths := by decide +kernel
  have hforetold := format_foretold r h
  refine ⟨h, by decide +kernel, hforetold, ?_⟩
  rw [hforetold.complained ⟨true, false⟩ ⟨false, false⟩]
  decide +kernel

end Workspace

end Idl
