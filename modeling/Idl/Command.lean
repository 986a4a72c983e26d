import Idl.Dump
import Idl.Invocation
import Idl.Layout
import Idl.Parse
import Idl.Text.Lines
import Idl.Workspace

/-! # Commands

A request is answered by loading files, deciding about each one on its text alone, and telling what
was decided. Two things are left open: how files are loaded and saved (`FileAccess`), and how an
error is drawn in the text it is about and a model written as JSON (`Renderer`). Where the files are
kept in a state (`Store`), as in a `Workspace`, the answer is a function of the request, the state
and the renderer.

* `judge`: what formatting has to say about a loaded file, the same in every mode.
* `survey`: the verdicts on a list of files; in a mode that writes, each file is saved before the
  next one is loaded.
* `Request.answer`: the outcome of a request.
* `Store.answer`: the outcome over a state, and the state left behind; `Store.answer_check`,
  `Store.answer_dump`, `Store.answer_lex` and `Store.answer_format` spell it out. -/

namespace Idl

/-- The version of the tool. -/
def toolVersion : String := "0.1.0"

/-! ### Outcomes -/

/-- What a command prints, and the message it fails with, if it fails. -/
structure Outcome where
  stdout : String := ""
  stderr : String := ""
  failure : Option String := none
deriving DecidableEq, Repr

namespace Outcome

/-- A command that fails ends with status 1. -/
def exitCode (o : Outcome) : Nat := if o.failure.isSome then 1 else 0

/-- What is printed in the end: the message of a failure goes to the error stream, if there is any
text in it. -/
def printedErrors (o : Outcome) : String :=
  match o.failure with
  | some message => if message = "" then o.stderr else o.stderr ++ message ++ "\n"
  | none => o.stderr

end Outcome

/-- A line of output. -/
def outputLine (text : String) : String := text ++ "\n"

/-! ### Rendering -/

/-- **How errors and models are shown.** Both ways can fail. -/
structure Renderer where
  /-- The drawing of an error in the text it is about, under the name of the file. -/
  draw : String → String → SyntaxError → Option String
  /-- The JSON form of a model, or the reason why there is none. -/
  json : List Module → Except String String

namespace Renderer

/-- The report on an error: its drawing or, if there is none, the message behind the name of the
file. -/
def report (r : Renderer) (path source : String) (error : SyntaxError) : String :=
  (r.draw path source error).getD (path ++ ": " ++ error.diagnostic.message)

/-- Draws nothing, and writes models with an indentation of two spaces. -/
def plain : Renderer where
  draw _ _ _ := none
  json program := .ok ((Json.ofProgram program).pretty 0)

end Renderer

/-! ### Files -/

/-- A way to load and save files. -/
structure FileAccess (m : Type → Type) where
  load : String → m (Except LoadError String)
  save : String → String → m Unit

/-- Saves a text if there is one. -/
def FileAccess.replace {m : Type → Type} [Monad m] (access : FileAccess m) (path : String) :
    Option String → m Unit
  | some text => access.save path text
  | none => pure ()

/-- Why a file gives no program. -/
inductive FileError where
  | load (error : LoadError)
  | malformed (path source : String) (error : SyntaxError)
deriving DecidableEq, Repr

namespace FileError

/-- The message in one line. -/
def message : FileError → String
  | load error => error.message
  | malformed path _ error => path ++ ": " ++ error.diagnostic.message

/-- What is shown to the user: a report on a malformed file, the message otherwise. -/
def report (r : Renderer) : FileError → String
  | load error => error.message
  | malformed path source error => r.report path source error

end FileError

/-- The program in a loaded file. -/
def parseLoaded (path : String) (loaded : Except LoadError String) :
    Except FileError (List Module) :=
  match loaded with
  | .error error => .error (.load error)
  | .ok source => (parseText source).mapError (.malformed path source)

/-! ### Checking -/

/-- What is told about one file: a line for a program, a report for anything else. -/
def checkLine (r : Renderer) (path : String) (result : Except FileError (List Module)) : Outcome :=
  match result with
  | .ok program =>
    { stdout := outputLine ("ok: " ++ path ++ " (" ++ program.length.repr ++ " module(s))") }
  | .error error => { stderr := outputLine (error.report r) }

/-- Whether a file gave no program. -/
def isFailure (result : Except FileError (List Module)) : Bool :=
  match result with
  | .ok _ => false
  | .error _ => true

/-- What is told about checked files, and how many of them are no programs. -/
def checkOutcome (r : Renderer) (results : List (String × Except FileError (List Module))) :
    Outcome :=
  let told := results.map fun result => checkLine r result.1 result.2
  let failed := (results.filter fun result => isFailure result.2).length
  { stdout := String.join (told.map Outcome.stdout) ++
      if failed = 0 then outputLine ("✓ " ++ results.length.repr ++ " file(s) parsed") else ""
    stderr := String.join (told.map Outcome.stderr)
    failure :=
      if failed = 0 then none
      else some (failed.repr ++ " of " ++ results.length.repr ++ " file(s) failed to parse") }

/-! ### Dumping and scanning -/

/-- The program of a file, as an outline or as JSON. What is shown of an error is trimmed. -/
def dumpOutcome (r : Renderer) (json : Bool) (result : Except FileError (List Module)) : Outcome :=
  match result with
  | .error error => { failure := some (Text.trimEnd (error.report r)) }
  | .ok program =>
    if json then
      match r.json program with
      | .ok text => { stdout := outputLine text }
      | .error reason => { failure := some ("Error serializing model: " ++ reason) }
    else { stdout := Outline.ofProgram program }

/-- The tokens of a file, one on a line. A report is trimmed, the message of a file that cannot be
loaded is not. -/
def lexOutcome (r : Renderer) (path : String) (loaded : Except LoadError String) : Outcome :=
  match loaded with
  | .error error => { failure := some error.message }
  | .ok source =>
    match Scan.ofText source with
    | .error error => { failure := some (Text.trimEnd (r.report path source (.lex error))) }
    | .ok scan =>
      { stdout := String.join (scan.tokens.map fun t =>
          outputLine (t.span.text ++ "\t" ++ t.kind.text)) }

/-! ### Formatting -/

/-- What formatting has to say about a file. -/
inductive Verdict where
  /-- The file cannot be loaded. -/
  | unreadable (error : LoadError)
  /-- The file is no program. -/
  | malformed (source : String) (error : SyntaxError)
  /-- The file has comments, which formatting would lose. -/
  | commented
  /-- The file is as it should be. -/
  | settled
  /-- The file differs from its canonical text. -/
  | unsettled (source formatted : String)
deriving DecidableEq, Repr

/-- Whether a text has comments. -/
def hasComments (source : String) : Bool :=
  match Scan.ofText source with
  | .ok scan => !scan.comments.isEmpty
  | .error _ => false

/-- **The verdict on a loaded file.** -/
def judge (loaded : Except LoadError String) : Verdict :=
  match loaded with
  | .error error => .unreadable error
  | .ok source =>
    match Layout.standard.formatText source with
    | .error error => .malformed source error
    | .ok formatted =>
      if hasComments source then .commented
      else if source = formatted then .settled
      else .unsettled source formatted

/-- The text that replaces a file: where the mode writes, the canonical text of a file that differs
from it. -/
def Verdict.replacement? (writes : Bool) : Verdict → Option String
  | unsettled _ formatted => if writes then some formatted else none
  | unreadable _ | malformed _ _ | commented | settled => none

/-- **The verdicts on some files.** A file that is to be replaced is saved before the next one is
loaded. -/
def survey {m : Type → Type} [Monad m] (access : FileAccess m) (writes : Bool) :
    List String → m (List (String × Verdict))
  | [] => pure []
  | path :: later => do
    let verdict := judge (← access.load path)
    access.replace path (verdict.replacement? writes)
    return (path, verdict) :: (← survey access writes later)

/-- Whether formatting failed on a file. -/
def Verdict.isError : Verdict → Bool
  | unreadable _ | malformed _ _ => true
  | commented | settled | unsettled _ _ => false

/-- Whether a file differs from its canonical text. -/
def Verdict.isUnsettled : Verdict → Bool
  | unsettled _ _ => true
  | unreadable _ | malformed _ _ | commented | settled => false

/-- The text of the edits that formatting a source would make. -/
def editText (source : String) : String :=
  match comparison source with
  | .ok (some edits) => edits
  | .ok none => ""
  | .error _ => ""

/-- What is told about one file. -/
def formatLine (r : Renderer) (mode : FormatMode) (path : String) (verdict : Verdict) : Outcome :=
  match verdict with
  | .unreadable error => { stderr := outputLine error.message }
  | .malformed source error => { stderr := outputLine (r.report path source error) }
  | .commented =>
    { stderr := outputLine ("Skipped " ++ path ++ ": formatting would remove its comments") }
  | .settled => {}
  | .unsettled source _ =>
    { stdout :=
        (if mode.diff then outputLine ("--- " ++ path) ++ outputLine (editText source) else "") ++
          (if mode.check then outputLine ("Would reformat: " ++ path) else "") ++
          (if mode.writes then outputLine ("Formatted: " ++ path) else "") }

/-- The last line about formatted files, and the message that a command fails with. Where nothing is
written, files that would change make it fail; errors always do. -/
def formatSummary (mode : FormatMode) (verdicts : List Verdict) : Outcome :=
  let errors := (verdicts.filter Verdict.isError).length
  let skipped := (verdicts.filter (· = .commented)).length
  let unsettled := (verdicts.filter Verdict.isUnsettled).length
  let failed := if errors = 0 then none else some ""
  if mode.writes then
    { stdout := "\n" ++ outputLine ("✓ " ++ unsettled.repr ++ " file(s) formatted, " ++
        skipped.repr ++ " skipped, " ++ errors.repr ++ " error(s)")
      failure := failed }
  else if unsettled ≠ 0 then
    { failure := some ("\n" ++ unsettled.repr ++
        if mode.diff then " file(s) need formatting" else " file(s) would be reformatted") }
  else
    { stdout :=
        if errors = 0 then
          outputLine ("✓ " ++ (verdicts.length - skipped).repr ++ " file(s) already formatted, " ++
            skipped.repr ++ " skipped")
        else ""
      failure := failed }

/-- What is told about formatted files. -/
def formatOutcome (r : Renderer) (mode : FormatMode) (verdicts : List (String × Verdict)) :
    Outcome :=
  let told := verdicts.map fun verdict => formatLine r mode verdict.1 verdict.2
  let summary := formatSummary mode (verdicts.map Prod.snd)
  { stdout := String.join (told.map Outcome.stdout) ++ summary.stdout
    stderr := String.join (told.map Outcome.stderr)
    failure := summary.failure }

/-! ### Requests -/

/-- The programs of some files, in order. -/
def parseFiles {m : Type → Type} [Monad m] (access : FileAccess m) (paths : List String) :
    m (List (String × Except FileError (List Module))) :=
  paths.mapM fun path => return (path, parseLoaded path (← access.load path))

/-- **The outcome of a request.** -/
def Request.answer {m : Type → Type} [Monad m] (access : FileAccess m) (r : Renderer) :
    Request → m Outcome
  | .check paths => return checkOutcome r (← parseFiles access paths)
  | .dump path json => return dumpOutcome r json (parseLoaded path (← access.load path))
  | .format paths mode => return formatOutcome r mode (← survey access mode.writes paths)
  | .lex path => return lexOutcome r path (← access.load path)

/-! ### Files in a state -/

/-- Files that are kept in a state. -/
structure Store (σ : Type) where
  load : σ → String → Except LoadError String
  save : σ → String → String → σ

namespace Store

variable {σ : Type} (files : Store σ)

/-- Loading looks at the state, and saving changes it. -/
def access : FileAccess (StateM σ) where
  load path := return files.load (← get) path
  save path text := modify fun s => files.save s path text

/-- **The outcome of a request over a state**, and the state that it leaves. -/
def answer (r : Renderer) (s : σ) (request : Request) : Outcome × σ :=
  (request.answer files.access r).run s

/-- The state with a new text in a file, if there is a new text. -/
def replace (s : σ) (path : String) : Option String → σ
  | some text => files.save s path text
  | none => s

/-- The state that formatting one file leaves. -/
def settle (s : σ) (writes : Bool) (path : String) : σ :=
  files.replace s path ((judge (files.load s path)).replacement? writes)

/-- The state that formatting some files leaves. -/
def settleAll (s : σ) (writes : Bool) (paths : List String) : σ :=
  paths.foldl (fun s path => files.settle s writes path) s

theorem run_parseFiles (s : σ) (paths : List String) :
    (parseFiles files.access paths).run s =
      (paths.map fun path => (path, parseLoaded path (files.load s path)), s) := by
  induction paths with
  | nil => rfl
  | cons path later ih =>
    have h : (parseFiles files.access (path :: later)).run s =
        ((path, parseLoaded path (files.load s path)) ::
          ((parseFiles files.access later).run s).1,
          ((parseFiles files.access later).run s).2) := by
      simp only [parseFiles, List.mapM_cons]; rfl
    rw [h, ih]; rfl

/-- Each file is judged in the state that the files before it left. -/
theorem run_survey_cons (s : σ) (writes : Bool) (path : String) (later : List String) :
    (survey files.access writes (path :: later)).run s =
      ((path, judge (files.load s path)) ::
        ((survey files.access writes later).run (files.settle s writes path)).1,
        ((survey files.access writes later).run (files.settle s writes path)).2) := by
  have hr : ∀ text, ((files.access.replace path text).run s).2 = files.replace s path text :=
    fun text => by cases text <;> rfl
  unfold settle
  rw [← hr]
  rfl

theorem answer_check (r : Renderer) (s : σ) (paths : List String) :
    files.answer r s (.check paths) =
      (checkOutcome r (paths.map fun path => (path, parseLoaded path (files.load s path))), s) := by
  have h : files.answer r s (.check paths) =
      (checkOutcome r ((parseFiles files.access paths).run s).1,
        ((parseFiles files.access paths).run s).2) := rfl
  rw [h, run_parseFiles]

theorem answer_dump (r : Renderer) (s : σ) (path : String) (json : Bool) :
    files.answer r s (.dump path json) =
      (dumpOutcome r json (parseLoaded path (files.load s path)), s) := rfl

theorem answer_lex (r : Renderer) (s : σ) (path : String) :
    files.answer r s (.lex path) = (lexOutcome r path (files.load s path), s) := rfl

theorem answer_format (r : Renderer) (s : σ) (paths : List String) (mode : FormatMode) :
    files.answer r s (.format paths mode) =
      (formatOutcome r mode ((survey files.access mode.writes paths).run s).1,
        ((survey files.access mode.writes paths).run s).2) := rfl

end Store

namespace Workspace

/-- The files of a workspace. -/
def store : Store Workspace := ⟨load, save⟩

@[simp] theorem store_load (w : Workspace) (path : String) : store.load w path = w.load path := rfl

/-- **The outcome of a request over a workspace**, and the workspace that it leaves. -/
def answer (w : Workspace) (r : Renderer) (request : Request) : Outcome × Workspace :=
  store.answer r w request

end Workspace

end Idl
