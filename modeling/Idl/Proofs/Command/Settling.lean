import Idl.Proofs.Command.Verdicts

/-! # Formatting files

Formatting a list of files takes them one by one: a file is loaded, judged, and replaced by its
canonical text where the mode writes and the text differs from it. So much holds of files in any
state (`Store.run_survey_snd`), and no other request changes anything (`Store.answer_snd`).

In a workspace this is all that one step can do (`Workspace.settle_cases`). It makes and removes
nothing, so every path leads where it led before (`Workspace.fileAt?_settle`), and a file that is
not replaced itself holds what it held.

A file that was replaced is not replaced again: its text is its own canonical text, or it has become
too large to be loaded (`Contents.settled_settled`). So in the end every file that is named, in
whatever order and however often, holds what formatting it alone would have left
(`Workspace.heldAt?_settleAll`).

* `Store.answer_map`: requests do the same on two states that load and save alike.
* `Workspace.load_eq_ok_iff`: which paths lead to a text.
* `Workspace.load_settleAll`: whatever is not to be replaced stays. -/

namespace Idl

/-! ### Files in a state -/

namespace Store

variable {σ : Type} (files : Store σ) (r : Renderer)

@[simp] theorem settle_false (s : σ) (path : String) : files.settle s false path = s := by
  unfold settle
  rcases judge (files.load s path) with _ | _ | _ | _ | _ <;> rfl

@[simp] theorem settleAll_nil (s : σ) (writes : Bool) : files.settleAll s writes [] = s := rfl

@[simp] theorem settleAll_cons (s : σ) (writes : Bool) (path : String) (later : List String) :
    files.settleAll s writes (path :: later) =
      files.settleAll (files.settle s writes path) writes later := rfl

theorem settleAll_false (s : σ) (paths : List String) : files.settleAll s false paths = s := by
  induction paths with
  | nil => rfl
  | cons path later ih => rw [settleAll_cons, settle_false, ih]

/-- **Files are formatted one by one.** -/
theorem run_survey_snd (s : σ) (writes : Bool) (paths : List String) :
    ((survey files.access writes paths).run s).2 = files.settleAll s writes paths := by
  induction paths generalizing s with
  | nil => rfl
  | cons path later ih => rw [run_survey_cons, ih, settleAll_cons]

theorem run_survey_false (s : σ) (paths : List String) :
    ((survey files.access false paths).run s).1 =
      paths.map fun path => (path, judge (files.load s path)) := by
  induction paths with
  | nil => rfl
  | cons path later ih => rw [run_survey_cons, settle_false, ih, List.map_cons]

/-- Where nothing is written, formatting tells about the files as they stand and leaves them. -/
theorem answer_format_of_not_writes (s : σ) (paths : List String) {mode : FormatMode}
    (h : mode.writes = false) :
    files.answer r s (.format paths mode) =
      (formatOutcome r mode (paths.map fun path => (path, judge (files.load s path))), s) := by
  rw [answer_format, h, run_survey_false, run_survey_snd, settleAll_false]

/-- **What a request leaves:** the files that are formatted are taken one by one, and no other
request does anything. -/
theorem answer_snd (s : σ) (request : Request) :
    (files.answer r s request).2 =
      match request with
      | .format paths mode => files.settleAll s mode.writes paths
      | .check _ | .dump _ _ | .lex _ => s := by
  rcases request with paths | ⟨path, json⟩ | ⟨paths, mode⟩ | path
  · rw [answer_check]
  · rfl
  · exact files.run_survey_snd s mode.writes paths
  · rfl

/-- Only a request that writes does anything. -/
theorem answer_snd_of_ne {request : Request}
    (hr : ∀ paths, request ≠ .format paths ⟨false, false⟩) (s : σ) :
    (files.answer r s request).2 = s := by
  rw [answer_snd]
  rcases request with paths | ⟨path, json⟩ | ⟨paths, ⟨check, diff⟩⟩ | path
  case format =>
    have hwrites : (⟨check, diff⟩ : FormatMode).writes = false := by
      rcases check with _ | _
      · rcases diff with _ | _
        · exact absurd rfl (hr paths)
        · rfl
      · rfl
    show files.settleAll s (⟨check, diff⟩ : FormatMode).writes paths = s
    rw [hwrites, settleAll_false]
  all_goals rfl

section Map
variable {τ : Type} {files : Store σ} {files' : Store τ} {f : σ → τ}
  (hload : ∀ s path, files'.load (f s) path = files.load s path)
  (hsave : ∀ s path text, files'.save (f s) path text = f (files.save s path text))
include hload hsave

theorem settle_map (s : σ) (writes : Bool) (path : String) :
    files'.settle (f s) writes path = f (files.settle s writes path) := by
  unfold settle
  rw [hload]
  rcases (judge (files.load s path)).replacement? writes with _ | text
  · rfl
  · exact hsave s path text

theorem run_survey_map (s : σ) (writes : Bool) (paths : List String) :
    (survey files'.access writes paths).run (f s) =
      (((survey files.access writes paths).run s).1,
        f ((survey files.access writes paths).run s).2) := by
  induction paths generalizing s with
  | nil => rfl
  | cons path later ih =>
    rw [run_survey_cons, run_survey_cons, settle_map hload hsave, ih, hload]

/-- **What is told and done depends on how files are loaded and saved**, not on what else a state
has in it. -/
theorem answer_map (r : Renderer) (s : σ) (request : Request) :
    files'.answer r (f s) request =
      ((files.answer r s request).1, f (files.answer r s request).2) := by
  rcases request with paths | ⟨path, json⟩ | ⟨paths, mode⟩ | path
  · rw [answer_check, answer_check]
    simp only [hload]
  · rw [answer_dump, answer_dump, hload]
  · rw [answer_format, answer_format, run_survey_map hload hsave]
  · rw [answer_lex, answer_lex, hload]

end Map

end Store

/-! ### Contents -/

namespace Contents

/-- The text that is loaded: the one that a file holds, if it is not too large. -/
def source? (c : Contents) : Option String := if c.size ≤ maxSourceSize then c.text? else none

/-- What a file holds after formatting it. -/
def settled (c : Contents) : Contents :=
  match c.source?.bind fun source => (judge (.ok source)).replacement? true with
  | some formatted => .text formatted
  | none => c

theorem source?_eq_some_iff {c : Contents} {source : String} :
    c.source? = some source ↔ c.size ≤ maxSourceSize ∧ c.text? = some source := by
  unfold source?
  split_ifs with h
  · simp only [h, true_and]
  · simp [h]

/-- **What a file holds after formatting it:** what it held, unless it is to be replaced. -/
theorem settled_cases (c : Contents) :
    ((∀ source formatted, c.source? = some source →
        judge (.ok source) ≠ .unsettled source formatted) ∧ c.settled = c) ∨
    ∃ source formatted, c.source? = some source ∧
      judge (.ok source) = .unsettled source formatted ∧ c.settled = .text formatted := by
  unfold settled
  rcases hr : (c.source?.bind fun source => (judge (.ok source)).replacement? true) with
    _ | formatted
  · left
    refine ⟨fun source formatted hs hj => ?_, rfl⟩
    have hsome := replacement?_eq_some_iff.mpr ⟨rfl, source, hj⟩
    rw [hs, Option.bind_some, hsome] at hr
    cases hr
  · right
    obtain ⟨source, hs, hreplace⟩ := Option.bind_eq_some_iff.mp hr
    obtain ⟨-, source', hj⟩ := replacement?_eq_some_iff.mp hreplace
    obtain rfl := Except.ok.inj (judge_eq_unsettled_iff.mp hj).1
    exact ⟨source, formatted, hs, hj, rfl⟩

theorem settled_of_unsettled {c : Contents} {source formatted : String}
    (hs : c.source? = some source) (hj : judge (.ok source) = .unsettled source formatted) :
    c.settled = .text formatted := by
  rcases c.settled_cases with ⟨h, -⟩ | ⟨source', formatted', hs', hj', h⟩
  · exact absurd hj (h source formatted hs)
  · obtain rfl : source = source' := Option.some.inj (hs.symm.trans hs')
    rw [hj, Verdict.unsettled.injEq] at hj'
    rw [h, hj'.2]

/-- A file that is to be replaced is replaced by something else. -/
theorem settled_ne_of_unsettled {c : Contents} {source formatted : String}
    (hs : c.source? = some source) (hj : judge (.ok source) = .unsettled source formatted) :
    c.settled ≠ c := by
  intro h
  rw [settled_of_unsettled hs hj] at h
  have htext := (source?_eq_some_iff.mp hs).2
  obtain ⟨-, -, -, hne⟩ := judge_eq_unsettled_iff.mp hj
  rw [← h] at htext
  exact hne (Option.some.inj htext).symm

/-- **No file is replaced twice.** -/
theorem settled_settled (c : Contents) : c.settled.settled = c.settled := by
  rcases c.settled_cases with ⟨-, h⟩ | ⟨source, formatted, -, hj, h⟩
  · rw [h]
    exact h
  · rw [h]
    rcases (text formatted).settled_cases with ⟨-, h'⟩ | ⟨source', formatted', hs', hj', -⟩
    · exact h'
    · obtain rfl : formatted = source' := Option.some.inj (source?_eq_some_iff.mp hs').2
      obtain ⟨-, hf, -⟩ := judge_eq_unsettled_iff.mp hj
      rw [judge_of_formatText hf] at hj'
      cases hj'

end Contents

namespace Workspace

/-! ### Where paths lead -/

/-- The place of the file that a path leads to, if it leads to a file. -/
def fileAt? (w : Workspace) (path : String) : Option Place :=
  match w.resolve path with
  | .ok (.inside place) => if (w.file? place).isSome then some place else none
  | .ok .outside => none
  | .error _ => none

/-- What the file that a path leads to holds, if it leads to a file. -/
def heldAt? (w : Workspace) (path : String) : Option Contents := (w.fileAt? path).bind w.file?

theorem fileAt?_eq_some_iff {w : Workspace} {path : String} {place : Place} :
    w.fileAt? path = some place ↔
      w.resolve path = .ok (.inside place) ∧ ∃ contents, w.file? place = some contents := by
  unfold fileAt?
  rcases w.resolve path with cause | ⟨other⟩ | _
  · simp
  · simp only [Option.ite_none_right_eq_some, Option.some.injEq, Except.ok.injEq,
      Location.inside.injEq, Option.isSome_iff_exists]
    constructor
    · rintro ⟨h, rfl⟩
      exact ⟨rfl, h⟩
    · rintro ⟨rfl, h⟩
      exact ⟨h, rfl⟩
  · simp

theorem heldAt?_of_resolve {w : Workspace} {path : String} {location : Location}
    (h : w.resolve path = .ok location) : w.heldAt? path = w.contents? location := by
  unfold heldAt? fileAt?
  rw [h]
  rcases location with place | _
  · rcases hf : w.file? place with _ | contents
    · simp [hf, contents?]
    · simp [hf, contents?]
  · rfl

/-- What is loaded depends on where a path leads and on what the file there holds. -/
theorem load_congr {w w' : Workspace} {path : String} (hr : w'.resolve path = w.resolve path)
    (hh : w'.heldAt? path = w.heldAt? path) : w'.load path = w.load path := by
  unfold load
  rcases h : w.resolve path with cause | location
  · rw [hr, h]
  · rw [hr, h]
    rw [heldAt?_of_resolve h, heldAt?_of_resolve (hr.trans h)] at hh
    simp only [hh]

/-- A file that is not too large is loaded as the text that it holds. -/
theorem load_of_heldAt? {w : Workspace} {path : String} {contents : Contents}
    (h : w.heldAt? path = some contents) :
    w.load path =
      if contents.size > maxSourceSize then .error (.tooLarge path contents.size)
      else contents.text?.elim (.error (.read path .invalidText)) .ok := by
  obtain ⟨place, hat, -⟩ := Option.bind_eq_some_iff.mp h
  have hr := (fileAt?_eq_some_iff.mp hat).1
  have hheld := (heldAt?_of_resolve hr).symm.trans h
  unfold load
  rw [hr]
  simp only [hheld]
  rcases contents.text? with _ | text
  · rfl
  · rfl

theorem load_of_heldAt?_text {w : Workspace} {path text : String}
    (h : w.heldAt? path = some (.text text)) :
    w.load path =
      if text.utf8ByteSize > maxSourceSize then .error (.tooLarge path text.utf8ByteSize)
      else .ok text :=
  load_of_heldAt? h

/-- **A path leads to a text** if it leads to a file that is not too large and holds a text. -/
theorem load_eq_ok_iff {w : Workspace} {path source : String} :
    w.load path = .ok source ↔
      ∃ contents, w.heldAt? path = some contents ∧ contents.source? = some source := by
  rcases hh : w.heldAt? path with _ | contents
  · simp only [reduceCtorEq, false_and, exists_false, iff_false]
    unfold load
    rcases hr : w.resolve path with cause | location
    · simp
    · simp [← heldAt?_of_resolve hr, hh]
  · rw [load_of_heldAt? hh]
    simp only [Option.some.injEq, exists_eq_left']
    rw [Contents.source?_eq_some_iff]
    by_cases hs : contents.size > maxSourceSize
    · simp [hs, Nat.not_le_of_gt hs]
    · rcases contents.text? with _ | text
      · simp [hs]
      · simp [hs, Nat.le_of_not_gt hs]

/-! ### Writing -/

/-- A file is there or not, whatever was written. -/
theorem isSome_file?_write (w : Workspace) (place other : Place) (contents : Contents) :
    ((w.write place contents).file? other).isSome = (w.file? other).isSome := by
  rw [file?_write]
  split_ifs
  · exact Option.isSome_map
  · rfl

theorem walk_write (w : Workspace) (place : Place) (contents : Contents) (here : Location)
    (names : List String) : (w.write place contents).walk here names = w.walk here names := by
  have hdir : ∀ other, (w.write place contents).isDirectory other = w.isDirectory other :=
    fun _ => rfl
  induction names generalizing here with
  | nil => rfl
  | cons name later ih => simp only [walk, ih, isSome_file?_write, hdir]

/-- **Paths lead where they led before**, whatever was written. -/
theorem resolve_write (w : Workspace) (place : Place) (contents : Contents) (path : String) :
    (w.write place contents).resolve path = w.resolve path := by
  simp only [resolve, walk_write]

theorem fileAt?_write (w : Workspace) (place : Place) (contents : Contents) (path : String) :
    (w.write place contents).fileAt? path = w.fileAt? path := by
  unfold fileAt?
  rw [resolve_write]
  rcases w.resolve path with cause | ⟨other⟩ | _
  · rfl
  · simp only [isSome_file?_write]
  · rfl

/-! ### One file -/

/-- **What formatting one file does:** nothing, or it writes the canonical text of a program without
comments that differs from it. -/
theorem settle_cases (w : Workspace) (writes : Bool) (path : String) :
    ((∀ source formatted, writes = true → judge (w.load path) ≠ .unsettled source formatted) ∧
      store.settle w writes path = w) ∨
    ∃ place contents source formatted, writes = true ∧ w.fileAt? path = some place ∧
      w.file? place = some contents ∧ contents.source? = some source ∧
      judge (.ok source) = .unsettled source formatted ∧
      store.settle w writes path = w.write place (.text formatted) := by
  unfold Store.settle
  rw [store_load]
  rcases hr : (judge (w.load path)).replacement? writes with _ | text
  · left
    refine ⟨fun source formatted hw hv => ?_, rfl⟩
    have hsome := replacement?_eq_some_iff.mpr ⟨hw, source, hv⟩
    rw [hr] at hsome
    cases hsome
  · right
    obtain ⟨hw, source, hv⟩ := replacement?_eq_some_iff.mp hr
    have hload := (judge_eq_unsettled_iff.mp hv).1
    obtain ⟨contents, hheld, hsource⟩ := load_eq_ok_iff.mp hload
    obtain ⟨place, hat, hfile⟩ := Option.bind_eq_some_iff.mp hheld
    rw [hload] at hv
    refine ⟨place, contents, source, text, hw, hat, hfile, hsource, hv, ?_⟩
    show w.save path text = w.write place (.text text)
    unfold save
    rw [(fileAt?_eq_some_iff.mp hat).1]

theorem resolve_settle (w : Workspace) (writes : Bool) (other path : String) :
    (store.settle w writes other).resolve path = w.resolve path := by
  rcases w.settle_cases writes other with ⟨-, h⟩ | ⟨_, _, _, _, _, _, _, _, _, h⟩
  · rw [h]
  · rw [h, resolve_write]

theorem fileAt?_settle (w : Workspace) (writes : Bool) (other path : String) :
    (store.settle w writes other).fileAt? path = w.fileAt? path := by
  rcases w.settle_cases writes other with ⟨-, h⟩ | ⟨_, _, _, _, _, _, _, _, _, h⟩
  · rw [h]
  · rw [h, fileAt?_write]

/-- **Formatting one file settles what it holds** and leaves all others alone. -/
theorem file?_settle (w : Workspace) (path : String) (place : Place) :
    (store.settle w true path).file? place =
      if w.fileAt? path = some place then (w.file? place).map Contents.settled
      else w.file? place := by
  rcases w.settle_cases true path with ⟨hkept, h⟩ |
    ⟨written, contents, source, formatted, -, hat, hfile, hsource, hj, h⟩
  · rw [h]
    split_ifs with hat
    · rcases hfile : w.file? place with _ | contents
      · rfl
      · have hheld : w.heldAt? path = some contents := Option.bind_eq_some_iff.mpr ⟨_, hat, hfile⟩
        rcases contents.settled_cases with ⟨-, hs⟩ | ⟨source, formatted, hsource, hj, -⟩
        · rw [Option.map_some, hs]
        · have hload := load_eq_ok_iff.mpr ⟨contents, hheld, hsource⟩
          refine absurd ?_ (hkept source formatted rfl)
          rw [hload, hj]
    · rfl
  · rw [h, file?_write]
    by_cases hp : place = written
    · subst hp
      rw [if_pos rfl, if_pos hat, hfile]
      exact congrArg some (Contents.settled_of_unsettled hsource hj).symm
    · have hne : w.fileAt? path ≠ some place := fun h => hp (Option.some.inj (h.symm.trans hat))
      rw [if_neg hp, if_neg hne]

/-- What a path leads to is settled by formatting a path that leads to the same file. -/
theorem heldAt?_settle (w : Workspace) (other path : String) :
    (store.settle w true other).heldAt? path =
      if w.fileAt? other = w.fileAt? path then (w.heldAt? path).map Contents.settled
      else w.heldAt? path := by
  unfold heldAt?
  rw [fileAt?_settle]
  rcases w.fileAt? path with _ | place
  · simp
  · simp only [Option.bind_some, file?_settle]

/-! ### Many files -/

theorem resolve_settleAll (w : Workspace) (writes : Bool) (paths : List String) (path : String) :
    (store.settleAll w writes paths).resolve path = w.resolve path := by
  induction paths generalizing w with
  | nil => rfl
  | cons other later ih => rw [Store.settleAll_cons, ih, resolve_settle]

/-- **A file that is named is settled**, in whatever order and however often, and all others hold
what they held. -/
theorem heldAt?_settleAll (w : Workspace) (paths : List String) (path : String) :
    (store.settleAll w true paths).heldAt? path =
      if ∃ other ∈ paths, w.fileAt? other = w.fileAt? path then
        (w.heldAt? path).map Contents.settled
      else w.heldAt? path := by
  induction paths generalizing w with
  | nil => simp
  | cons other later ih =>
    rw [Store.settleAll_cons, ih, heldAt?_settle]
    simp only [fileAt?_settle, List.exists_mem_cons_iff]
    by_cases ho : w.fileAt? other = w.fileAt? path
    · have htwice : Contents.settled ∘ Contents.settled = Contents.settled :=
        funext Contents.settled_settled
      simp only [ho, if_true, true_or, Option.map_map, htwice, ite_self]
    · simp only [ho, if_false, false_or]

theorem heldAt?_settleAll_of_mem (w : Workspace) {paths : List String} {path : String}
    (hp : path ∈ paths) :
    (store.settleAll w true paths).heldAt? path = (w.heldAt? path).map Contents.settled := by
  rw [heldAt?_settleAll, if_pos ⟨path, hp, rfl⟩]

/-- **A file that is not to be replaced stays**, whichever files are formatted. -/
theorem load_settleAll {w : Workspace} {path : String}
    (h : ∀ source formatted, judge (w.load path) ≠ .unsettled source formatted)
    (paths : List String) : (store.settleAll w true paths).load path = w.load path := by
  refine load_congr (w.resolve_settleAll true paths path) ?_
  rw [heldAt?_settleAll]
  split_ifs
  · rcases hh : w.heldAt? path with _ | contents
    · rfl
    · rcases contents.settled_cases with ⟨-, hs⟩ | ⟨source, formatted, hsource, hj, -⟩
      · rw [Option.map_some, hs]
      · refine absurd ?_ (h source formatted)
        rw [load_eq_ok_iff.mpr ⟨contents, hh, hsource⟩, hj]
  · rfl

end Workspace

end Idl
