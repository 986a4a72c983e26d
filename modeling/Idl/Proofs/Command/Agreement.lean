import Idl.Proofs.Command.Prediction

/-! # How the commands fit together

Checking, dumping, scanning and formatting each load a file and read it in their own way, and each
words its failures itself. They agree on which files are programs: what can be dumped is what
checking counts as good (`Workspace.dumps_eq`) and, where no two paths lead to one file, what
formatting has no error for. They agree on the words as well, however errors are drawn. A dump in
either form fails with the same message, and where scanning fails, dumping fails with the message of
the scan. The one message that is trimmed by the one and not by the other is that of a file that
cannot be loaded, and it ends in no white space (`Workspace.trimEnd_message_of_load`).

A dump as JSON could also fail because the model cannot be written. That the renderer writes every
model (`Renderer.WritesModels`) is all that is asked of it.

* `Workspace.stdout_check`, `Workspace.failure_check`: what checking says, by what can be dumped.
* `Workspace.failure_dump_of_lex`: scanning fails only where dumping does.
* `Workspace.commands_agree`: how all commands fit together. -/

namespace Idl

/-- **Every model has a JSON form.** A model is made of records, lists, texts and numbers, and none
of these is refused. -/
def Renderer.WritesModels (r : Renderer) : Prop := ∀ program, ∃ text, r.json program = .ok text

/-! ### Messages -/

namespace Workspace

theorem walk_ne_other {w : Workspace} {here : Location} {path : List String} {cause : Cause}
    (h : w.walk here path = .error cause) (message : String) : cause ≠ .other message := by
  induction path generalizing here with
  | nil => cases h
  | cons name later ih =>
    unfold walk at h
    by_cases hdots : name = "" ∨ name = "." ∨ name = ".."
    · rw [if_pos hdots] at h
      exact ih h
    rw [if_neg hdots] at h
    by_cases hlong : name.utf8ByteSize > maxNameSize
    · rw [if_pos hlong] at h
      cases h
      exact Cause.noConfusion
    rw [if_neg hlong] at h
    rcases henter : here.enter name with place | _
    · rw [henter] at h
      by_cases hfile : (w.file? place).isSome = true
      · by_cases hlast : later = []
        · simp only [hfile, hlast, if_true] at h
          cases h
        · simp only [hfile, hlast, if_true, if_false] at h
          cases h
          exact Cause.noConfusion
      · by_cases hdirectory : w.isDirectory place = true
        · simp only [hfile, hdirectory, if_true] at h
          exact ih h
        · simp only [hfile, hdirectory] at h
          cases h
          exact Cause.noConfusion
    · rw [henter] at h
      cases h
      exact Cause.noConfusion

theorem resolve_ne_other {w : Workspace} {path : String} {cause : Cause}
    (h : w.resolve path = .error cause) (message : String) : cause ≠ .other message := by
  unfold resolve at h
  split_ifs at h with hzero hempty hlong
  · cases h
    exact Cause.noConfusion
  · cases h
    exact Cause.noConfusion
  · cases h
    exact Cause.noConfusion
  · exact walk_ne_other h message

end Workspace

/-- The words for a cause end in no white space. -/
theorem Cause.trimEnd_text {cause : Cause} (h : ∀ message, cause ≠ .other message)
    (before : String) : Text.trimEnd (before ++ cause.text) = before ++ cause.text := by
  have hlast : ∃ c, cause.text.toList.getLast? = some c ∧ Text.whiteSpace.contains c = false := by
    rcases cause with _ | _ | _ | _ | _ | _ | message
    case other => exact absurd rfl (h message)
    case zeroInPath => exact ⟨'e', by decide +kernel⟩
    case invalidText => exact ⟨'8', by decide +kernel⟩
    all_goals exact ⟨')', by decide +kernel⟩
  obtain ⟨c, hlast, hc⟩ := hlast
  exact Text.trimEnd_append hlast hc

namespace Workspace

/-- **The message of a file that cannot be loaded is trimmed already.** -/
theorem trimEnd_message_of_load {w : Workspace} {path : String} {e : LoadError}
    (h : w.load path = .error e) : Text.trimEnd e.message = e.message := by
  unfold load at h
  rcases hr : w.resolve path with cause | location
  · rw [hr] at h
    cases h
    exact Cause.trimEnd_text (resolve_ne_other hr) _
  rw [hr] at h
  rcases hcontents : w.contents? location with _ | contents
  · simp only [hcontents] at h
    cases h
    exact Cause.trimEnd_text (fun _ => Cause.noConfusion) _
  by_cases hsize : contents.size > maxSourceSize
  · simp only [hcontents, hsize, if_true] at h
    cases h
    exact Text.trimEnd_append (c := ')') (by decide +kernel) (by decide +kernel)
  rcases htext : contents.text? with _ | text
  · simp only [hcontents, hsize, if_false, htext] at h
    cases h
    exact Cause.trimEnd_text (fun _ => Cause.noConfusion) _
  · simp only [hcontents, hsize, if_false, htext] at h
    cases h

/-! ### Dumping -/

/-- Whether dumping the file that a path leads to succeeds. -/
def dumps (w : Workspace) (r : Renderer) (path : String) : Bool :=
  (w.answer r (.dump path false)).1.exitCode = 0

/-- The model that a path leads to; the empty one if it leads to none. -/
def modelAt (w : Workspace) (path : String) : List Module :=
  match parseLoaded path (w.load path) with
  | .ok program => program
  | .error _ => []

theorem dumps_eq (w : Workspace) (r : Renderer) (path : String) :
    w.dumps r path = !isFailure (parseLoaded path (w.load path)) := by
  unfold dumps
  rw [answer, Store.answer_dump, store_load]
  rcases parseLoaded path (w.load path) with e | program
  · rfl
  · rfl

/-- **In either form a dump fails on the same files, with the same message.** -/
theorem failure_dump {r : Renderer} (hr : r.WritesModels) (w : Workspace) (path : String)
    (json : Bool) :
    (w.answer r (.dump path json)).1.failure = (w.answer r (.dump path false)).1.failure := by
  simp only [answer, Store.answer_dump, store_load]
  rcases parseLoaded path (w.load path) with e | program
  · rfl
  · obtain ⟨text, htext⟩ := hr program
    cases json with
    | false => rfl
    | true => simp only [dumpOutcome, htext, if_true, Bool.false_eq_true, if_false]

theorem exitCode_dump_eq_zero_iff {r : Renderer} (hr : r.WritesModels) (w : Workspace)
    (path : String) (json : Bool) :
    (w.answer r (.dump path json)).1.exitCode = 0 ↔ w.dumps r path = true := by
  unfold dumps
  rw [decide_eq_true_iff, Outcome.exitCode_eq_zero_iff, Outcome.exitCode_eq_zero_iff,
    failure_dump hr]

theorem stdout_dump {r : Renderer} (hr : r.WritesModels) {w : Workspace} {path : String}
    (h : w.dumps r path = true) :
    (w.answer r (.dump path false)).1.stdout = Outline.ofProgram (w.modelAt path) ∧
      ∃ text, r.json (w.modelAt path) = .ok text ∧
        (w.answer r (.dump path true)).1.stdout = outputLine text := by
  rw [dumps_eq] at h
  unfold modelAt
  simp only [answer, Store.answer_dump, store_load]
  rcases hp : parseLoaded path (w.load path) with e | program
  · rw [hp] at h
    cases h
  · obtain ⟨text, htext⟩ := hr program
    refine ⟨rfl, text, htext, ?_⟩
    simp only [dumpOutcome, htext, if_true]

/-! ### Scanning -/

/-- **Where scanning fails, dumping fails with the same message.** -/
theorem failure_dump_of_lex {w : Workspace} {r : Renderer} {path message : String}
    (h : (w.answer r (.lex path)).1.failure = some message) (json : Bool) :
    (w.answer r (.dump path json)).1.failure = some message := by
  simp only [answer, Store.answer_lex, Store.answer_dump, store_load] at h ⊢
  rcases hl : w.load path with e | source
  · -- Scanning gives the message as it is, and dumping trims it.
    rw [hl] at h
    obtain rfl := Option.some.inj h
    exact congrArg some (trimEnd_message_of_load hl)
  · rw [hl] at h
    rcases hs : Scan.ofText source with e | scan
    · have hp : parseText source = .error (.lex e) := by
        unfold parseText
        rw [hs]
      simp only [lexOutcome, hs] at h
      obtain rfl := Option.some.inj h
      simp only [parseLoaded, hp]
      rfl
    · simp only [lexOutcome, hs] at h
      cases h

/-! ### Checking -/

/-- What checking prints about a file that can be dumped. -/
def okLine (w : Workspace) (path : String) : String :=
  outputLine ("ok: " ++ path ++ " (" ++ (w.modelAt path).length.repr ++ " module(s))")

theorem stdout_checkLine (w : Workspace) (r : Renderer) (path : String) :
    (checkLine r path (parseLoaded path (w.load path))).stdout =
      if w.dumps r path then w.okLine path else "" := by
  rw [dumps_eq]
  unfold okLine modelAt
  rcases parseLoaded path (w.load path) with e | program
  · rfl
  · rfl

theorem length_filter_isFailure (w : Workspace) (r : Renderer) (paths : List String) :
    ((paths.map fun path => (path, parseLoaded path (w.load path))).filter fun result =>
      isFailure result.2).length = (paths.filter fun path => !w.dumps r path).length := by
  rw [List.filter_map, List.length_map]
  refine congrArg List.length (List.filter_congr fun path _ => ?_)
  rw [dumps_eq, Bool.not_not]
  rfl

/-- **Checking lists the files that can be dumped**, and says so if these are all. -/
theorem stdout_check (w : Workspace) (r : Renderer) (paths : List String) :
    (w.answer r (.check paths)).1.stdout =
      String.join ((paths.filter (w.dumps r)).map w.okLine) ++
        if (paths.filter fun path => !w.dumps r path).length = 0 then
          outputLine ("✓ " ++ paths.length.repr ++ " file(s) parsed") else "" := by
  rw [answer, Store.answer_check, ← join_filter, ← length_filter_isFailure]
  show String.join (((paths.map _).map _).map Outcome.stdout) ++ _ = _
  rw [List.map_map, List.map_map, List.length_map]
  refine congrArg (String.join · ++ _) (List.map_congr_left fun path _ => ?_)
  exact w.stdout_checkLine r path

theorem failure_check (w : Workspace) (r : Renderer) (paths : List String) :
    (w.answer r (.check paths)).1.failure =
      if (paths.filter fun path => !w.dumps r path).length = 0 then none
      else some ((paths.filter fun path => !w.dumps r path).length.repr ++ " of " ++
        paths.length.repr ++ " file(s) failed to parse") := by
  rw [answer, Store.answer_check, ← length_filter_isFailure]
  show (if _ then none else some (_ ++ " of " ++ (paths.map _).length.repr ++ _)) = _
  rw [List.length_map]
  rfl

theorem exitCode_check_eq_zero_iff (w : Workspace) (r : Renderer) (paths : List String) :
    (w.answer r (.check paths)).1.exitCode = 0 ↔ ∀ path ∈ paths, w.dumps r path = true := by
  rw [answer, Store.answer_check, exitCode_checkOutcome_eq_zero_iff, List.forall_mem_map]
  simp only [dumps_eq, Bool.not_eq_true', store_load]

theorem exitCode_format_eq_zero_iff {w : Workspace} {paths : List String} (h : w.Apart paths)
    (r : Renderer) :
    (w.answer r (.format paths ⟨false, false⟩)).1.exitCode = 0 ↔
      ∀ path ∈ paths, w.dumps r path = true := by
  rw [answer_fst_of_apart h, exitCode_formatOutcome_eq_zero_iff, List.forall_mem_map]
  simp only [dumps_eq, isFailure_parseLoaded, Bool.not_eq_true']
  -- Where files are written, it makes no difference which of them are to be replaced.
  exact and_iff_left fun hwrites => absurd hwrites (by decide)

/-! ### All commands -/

/-- **How the commands fit together** on some files of a workspace. -/
structure Agree (w : Workspace) (r : Renderer) (paths : List String) : Prop where
  /-- Checking succeeds exactly if a dump of every file does, in either form. -/
  succeeds : (w.answer r (.check paths)).1.exitCode = 0 ↔
    ∀ path ∈ paths, ∀ json, (w.answer r (.dump path json)).1.exitCode = 0
  /-- Checking has a line for each file that can be dumped, in order, and a last one if there are no
  others. -/
  listed : (w.answer r (.check paths)).1.stdout =
    String.join ((paths.filter (w.dumps r)).map w.okLine) ++
      if (paths.filter fun path => !w.dumps r path).length = 0 then
        outputLine ("✓ " ++ paths.length.repr ++ " file(s) parsed") else ""
  /-- The model whose modules such a line counts is the one that a dump shows. -/
  shown : ∀ path, w.dumps r path = true →
    (w.answer r (.dump path false)).1.stdout = Outline.ofProgram (w.modelAt path) ∧
      ∃ text, r.json (w.modelAt path) = .ok text ∧
        (w.answer r (.dump path true)).1.stdout = outputLine text
  /-- The message of a failed check counts the other files. -/
  counted : (w.answer r (.check paths)).1.failure =
    if (paths.filter fun path => !w.dumps r path).length = 0 then none
    else some ((paths.filter fun path => !w.dumps r path).length.repr ++ " of " ++
      paths.length.repr ++ " file(s) failed to parse")
  /-- A dump in either form fails on the same files, with the same message. -/
  dumped : ∀ path,
    (w.answer r (.dump path true)).1.failure = (w.answer r (.dump path false)).1.failure
  /-- Where scanning fails, dumping fails with the same message. -/
  scanned : ∀ path message, (w.answer r (.lex path)).1.failure = some message →
    ∀ json, (w.answer r (.dump path json)).1.failure = some message
  /-- Where no two paths lead to one file, formatting in place succeeds exactly if checking does. -/
  formatted : w.Apart paths → ((w.answer r (.format paths ⟨false, false⟩)).1.exitCode = 0 ↔
    (w.answer r (.check paths)).1.exitCode = 0)
  /-- Only formatting changes a file. -/
  unchanged : (w.answer r (.check paths)).2 = w ∧
    ∀ path, (w.answer r (.lex path)).2 = w ∧ ∀ json, (w.answer r (.dump path json)).2 = w

/-- **The commands agree with each other**, over every workspace and on all paths, whatever draws
the errors. -/
theorem commands_agree {r : Renderer} (hr : r.WritesModels) (w : Workspace)
    (paths : List String) : w.Agree r paths where
  succeeds := by
    rw [exitCode_check_eq_zero_iff]
    simp only [exitCode_dump_eq_zero_iff hr, forall_const]
  listed := w.stdout_check r paths
  shown path h := stdout_dump hr h
  counted := w.failure_check r paths
  dumped path := failure_dump hr w path true
  scanned path message h := failure_dump_of_lex h
  formatted h := by
    rw [exitCode_format_eq_zero_iff h, exitCode_check_eq_zero_iff]
  unchanged := by
    refine ⟨?_, fun path => ⟨rfl, fun json => rfl⟩⟩
    rw [answer, Store.answer_check]

/-- A program of two modules, a file that cannot be scanned, a path that leads nowhere, and a
program with a comment: checking lists the programs, and scanning fails on the others in the words
of a dump. -/
theorem commands_agree_mixed :
    let w : Workspace :=
      ⟨[(["a"], .text "module A\x7b\x7dmodule B\x7b\x7d"), (["b"], .text "module $"),
        (["c"], .text "// kept\nmodule C\x7b\x7d")], []⟩
    let paths := ["a", "b", "missing", "c"]
    let drawing := "gidl::lex::unexpected_character\n\n" ++
      "  × unexpected character '$'\n" ++
      "   ╭─[b:1:8]\n" ++
      " 1 │ module $\n" ++
      "   ·        ┬\n" ++
      "   ·        ╰── unexpected character\n" ++
      "   ╰────\n" ++
      "  help: identifiers are ASCII letters, digits and '_'; " ++
      "punctuation is one of \x7b \x7d ( ) , ; @"
    let r : Renderer :=
      { Renderer.plain with
        draw := fun path source _ =>
          if path = "b" ∧ source = "module $" then some (drawing ++ "\n") else none }
    let answer := (w.answer r (.check paths)).1
    r.WritesModels ∧ w.Agree r paths ∧ w.Apart paths ∧
      paths.filter (w.dumps r) = ["a", "c"] ∧
      answer.stdout = "ok: a (2 module(s))\nok: c (1 module(s))\n" ∧
      answer.failure = some "2 of 4 file(s) failed to parse" ∧
      (w.answer r (.dump "b" true)).1.failure = some drawing ∧
      (w.answer r (.dump "missing" false)).1.failure =
        some "Cannot access file 'missing': No such file or directory (os error 2)" ∧
      (w.answer r (.format paths ⟨false, false⟩)).1.exitCode ≠ 0 := by
  intro w paths drawing r answer
  have hr : r.WritesModels := fun program => ⟨_, rfl⟩
  have hagree := commands_agree hr w paths
  have hapart : w.Apart paths := by decide +kernel
  have hcheck : answer.exitCode ≠ 0 := by decide +kernel
  have hload : w.load "b" = .ok "module $" := by decide +kernel
  have hscan : Scan.ofText "module $" = .error ⟨.unexpectedCharacter, "$", ⟨7, 8, 1, 8⟩⟩ := by
    decide +kernel
  -- The drawing is long, so it is trimmed by rewriting and not by evaluation.
  have htrim : Text.trimEnd (drawing ++ "\n") = drawing := by
    rw [Text.trimEnd_append_white (by decide +kernel)]
    exact Text.trimEnd_append (c := '@') (by decide +kernel) (by decide +kernel)
  have hlex : (w.answer r (.lex "b")).1.failure = some drawing := by
    rw [Workspace.answer, Store.answer_lex, store_load, hload]
    simp only [lexOutcome, hscan]
    exact congrArg some htrim
  refine ⟨hr, hagree, hapart, by decide +kernel, by decide +kernel, by decide +kernel, ?_, ?_, ?_⟩
  · exact hagree.scanned "b" drawing hlex true
  · exact hagree.scanned "missing" _ (by decide +kernel) false
  · rw [ne_eq, hagree.formatted hapart]
    exact hcheck

end Workspace

end Idl
