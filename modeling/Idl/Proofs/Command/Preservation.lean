import Idl.Proofs.Command.Settling

/-! # What formatting keeps

Requests never lose what a file says. Among the workspaces that a series of requests goes through,
none has a file or directory more or less than the first one (`Workspace.Keeps`), and a file holds
either what it held in the beginning or, if that was a program without comments, its canonical text
(`Contents.Becomes`). A canonical text is never replaced, so these are the only two texts a file
ever has, and they are read as the same program.

A request is answered on any kind of files. To speak of all points on the way, it is answered on a
workspace that remembers what it was before each save (`History`).

* `History.keeps_answerAll`: every point of a series of requests, from what one file does.
* `History.texts_preserved`: the same in terms of texts and programs. -/

namespace Idl

/-! ### Contents -/

/-- What a file can become: nothing new, or what formatting it makes of it. -/
def Contents.Becomes (before after : Contents) : Prop := after = before ∨ after = before.settled

namespace Contents

theorem Becomes.refl (c : Contents) : c.Becomes c := .inl rfl

/-- Nothing is replaced twice. -/
theorem Becomes.trans {a b c : Contents} (hab : a.Becomes b) (hbc : b.Becomes c) :
    a.Becomes c := by
  rcases hab with rfl | rfl
  · exact hbc
  · rcases hbc with rfl | rfl
    · exact .inr rfl
    · exact .inr a.settled_settled

theorem Becomes.eq_of {before after : Contents} (h : before.Becomes after)
    (hb : maxSourceSize < before.size ∨ before.text? = none ∨ ∃ source,
      before.text? = some source ∧ ((∃ e, parseText source = .error e) ∨
        ∃ scan, Scan.ofText source = .ok scan ∧ scan.comments ≠ [])) :
    after = before := by
  rcases before.settled_cases with ⟨-, hs⟩ | ⟨source, formatted, hsource, hj, -⟩
  · rcases h with rfl | rfl
    · rfl
    · exact hs
  · obtain ⟨hsize, htext⟩ := source?_eq_some_iff.mp hsource
    obtain ⟨-, hf, hc, -⟩ := judge_eq_unsettled_iff.mp hj
    obtain ⟨program, hp, -⟩ := Layout.formatText_eq_ok_iff.mp hf
    rcases hb with hlarge | hnone | ⟨source', htext', herror | hcomment⟩
    · omega
    · rw [hnone] at htext
      cases htext
    · obtain ⟨e, he⟩ := herror
      rw [htext, Option.some.injEq] at htext'
      rw [← htext', hp] at he
      cases he
    · rw [htext, Option.some.injEq] at htext'
      have hcommented := hasComments_iff.mpr hcomment
      rw [← htext', hc] at hcommented
      cases hcommented

theorem Becomes.exists_text {before after : Contents} (h : before.Becomes after) {source : String}
    (hs : before.text? = some source) : ∃ text, after.text? = some text ∧
      (text = source ∨ Layout.standard.formatText source = .ok text) ∧
      (parseText text).map eraseSpans = (parseText source).map eraseSpans := by
  have hkept : after = before → ∃ text, after.text? = some text ∧
      (text = source ∨ Layout.standard.formatText source = .ok text) ∧
      (parseText text).map eraseSpans = (parseText source).map eraseSpans := by
    rintro rfl
    exact ⟨source, hs, .inl rfl, rfl⟩
  rcases h with hsame | hnew
  · exact hkept hsame
  · rcases before.settled_cases with ⟨-, hsettled⟩ | ⟨source', formatted, hsource, hj, hsettled⟩
    · exact hkept (hnew.trans hsettled)
    · obtain rfl : source = source' :=
        Option.some.inj (hs.symm.trans (source?_eq_some_iff.mp hsource).2)
      obtain ⟨-, hf, -⟩ := judge_eq_unsettled_iff.mp hj
      obtain ⟨program, hp, rfl⟩ := Layout.formatText_eq_ok_iff.mp hf
      obtain ⟨again, hagain, he⟩ := exists_parseText_format hp .standard
      refine ⟨_, by rw [hnew, hsettled]; rfl, .inr hf, ?_⟩
      rw [hp, hagain]
      exact congrArg Except.ok he

end Contents

/-! ### Workspaces -/

/-- A workspace has the files and directories of another one, and each file is what it was or could
become. -/
structure Workspace.Keeps (before after : Workspace) : Prop where
  places : after.files.map Prod.fst = before.files.map Prod.fst
  directories : after.directories = before.directories
  becomes : ∀ {place contents}, before.file? place = some contents →
    ∃ contents', after.file? place = some contents' ∧ contents.Becomes contents'

namespace Workspace

theorem Keeps.refl (w : Workspace) : w.Keeps w :=
  ⟨rfl, rfl, fun h => ⟨_, h, .refl _⟩⟩

theorem Keeps.trans {a b c : Workspace} (hab : a.Keeps b) (hbc : b.Keeps c) : a.Keeps c := by
  refine ⟨hbc.places.trans hab.places, hbc.directories.trans hab.directories, fun h => ?_⟩
  obtain ⟨contents', h', hbecomes⟩ := hab.becomes h
  obtain ⟨contents'', h'', hbecomes'⟩ := hbc.becomes h'
  exact ⟨contents'', h'', hbecomes.trans hbecomes'⟩

/-- **Formatting one file keeps what all files say.** -/
theorem keeps_settle (w : Workspace) (writes : Bool) (path : String) :
    w.Keeps (store.settle w writes path) := by
  rcases writes with _ | _
  · rw [Store.settle_false]
    exact .refl w
  · have hplaces : (store.settle w true path).files.map Prod.fst = w.files.map Prod.fst ∧
        (store.settle w true path).directories = w.directories := by
      rcases w.settle_cases true path with ⟨-, h⟩ | ⟨_, _, _, _, _, _, _, _, _, h⟩
      · rw [h]
        exact ⟨rfl, rfl⟩
      · rw [h, map_fst_write]
        exact ⟨rfl, rfl⟩
    refine ⟨hplaces.1, hplaces.2, fun {place} contents hcontents => ?_⟩
    rw [file?_settle, hcontents]
    split_ifs
    · exact ⟨contents.settled, rfl, .inr rfl⟩
    · exact ⟨contents, rfl, .inl rfl⟩

end Workspace

/-! ### Histories -/

/-- A workspace that remembers what it was, the latest first. -/
structure History where
  now : Workspace
  past : List Workspace

namespace History

/-- All that a workspace is and was. -/
def points (h : History) : List Workspace := h.now :: h.past

/-- A workspace with a new text in a file is a new point. -/
def save (h : History) (path text : String) : History := ⟨h.now.save path text, h.points⟩

/-- The files of a workspace that remembers. -/
def store : Store History := ⟨fun h => h.now.load, save⟩

/-- **The outcome of a request** over a workspace that remembers, and the workspace it leaves. -/
def answer (h : History) (r : Renderer) (request : Request) : Outcome × History :=
  store.answer r h request

/-- What a series of requests leaves. -/
def answerAll (h : History) (r : Renderer) (requests : List Request) : History :=
  requests.foldl (fun h request => (h.answer r request).2) h

/-- Formatting one file makes one more point, or none. -/
theorem settle_cases (h : History) (writes : Bool) (path : String) :
    store.settle h writes path = h ∨
      store.settle h writes path = ⟨Workspace.store.settle h.now writes path, h.points⟩ := by
  have hload : store.load h path = h.now.load path := rfl
  unfold Store.settle
  rw [hload, Workspace.store_load]
  rcases (judge (h.now.load path)).replacement? writes with _ | text
  · exact .inl rfl
  · exact .inr rfl

/-! ### Runs -/

/-- All points of a history keep what a workspace says. -/
def KeepsFrom (w : Workspace) (h : History) : Prop := ∀ w' ∈ h.points, w.Keeps w'

theorem KeepsFrom.settle {w : Workspace} {h : History} (hk : KeepsFrom w h) (writes : Bool)
    (path : String) : KeepsFrom w (store.settle h writes path) := by
  rcases h.settle_cases writes path with hsame | hnew
  · rw [hsame]
    exact hk
  · rw [hnew]
    intro w' hw'
    rcases List.mem_cons.mp hw' with rfl | hbefore
    · exact (hk h.now List.mem_cons_self).trans (h.now.keeps_settle writes path)
    · exact hk w' hbefore

theorem KeepsFrom.settleAll {w : Workspace} {h : History} (hk : KeepsFrom w h) (writes : Bool)
    (paths : List String) : KeepsFrom w (store.settleAll h writes paths) := by
  induction paths generalizing h with
  | nil => exact hk
  | cons path later ih => exact ih (hk.settle writes path)

theorem KeepsFrom.answer {w : Workspace} {h : History} (hk : KeepsFrom w h) (r : Renderer)
    (request : Request) : KeepsFrom w (h.answer r request).2 := by
  rw [History.answer, Store.answer_snd]
  rcases request with paths | ⟨path, json⟩ | ⟨paths, mode⟩ | path
  case format => exact hk.settleAll mode.writes paths
  all_goals exact hk

/-- **A series of requests keeps what all files say**, at every point. -/
theorem keeps_answerAll {w : Workspace} {h : History} (hk : KeepsFrom w h) (r : Renderer)
    (requests : List Request) : KeepsFrom w (h.answerAll r requests) := by
  induction requests generalizing h with
  | nil => exact hk
  | cons request later ih => exact ih (hk.answer r request)

/-- Remembering does not change what is done. -/
theorem now_answerAll (h : History) (r : Renderer) (requests : List Request) :
    (h.answerAll r requests).now =
      requests.foldl (fun w request => (w.answer r request).2) h.now := by
  induction requests generalizing h with
  | nil => rfl
  | cons request later ih =>
    have hstep : (h.now.answer r request).2 = (h.answer r request).2.now :=
      congrArg Prod.snd
        (Store.answer_map (f := now) (fun _ _ => rfl) (fun _ _ _ => rfl) r h request)
    rw [List.foldl_cons, hstep]
    exact ih (h.answer r request).2

/-- **No text is ever lost.** Only formatting in place does anything at all. At every point of a
series of requests the files and directories are those of the beginning; a file that is too large,
no text, no program or commented holds what it held; and any text is still there or replaced by its
canonical text, so it is read as the same program up to spans. -/
theorem texts_preserved (r : Renderer) (w : Workspace) (requests : List Request) :
    (∀ (h : History) (request : Request),
      (∀ paths, request ≠ .format paths ⟨false, false⟩) → (h.answer r request).2 = h) ∧
    (answerAll ⟨w, []⟩ r requests).now =
      requests.foldl (fun w request => (w.answer r request).2) w ∧
    ∀ w' ∈ (answerAll ⟨w, []⟩ r requests).points,
      w'.files.map Prod.fst = w.files.map Prod.fst ∧ w'.directories = w.directories ∧
      ∀ place before, w.file? place = some before → ∃ after, w'.file? place = some after ∧
        ((maxSourceSize < before.size ∨ before.text? = none ∨ ∃ source,
            before.text? = some source ∧ ((∃ e, parseText source = .error e) ∨
              ∃ scan, Scan.ofText source = .ok scan ∧ scan.comments ≠ [])) →
          after = before) ∧
        ∀ source, before.text? = some source → ∃ text, after.text? = some text ∧
          (text = source ∨ Layout.standard.formatText source = .ok text) ∧
          (parseText text).map eraseSpans = (parseText source).map eraseSpans := by
  refine ⟨fun h request hr => store.answer_snd_of_ne r hr h, now_answerAll ⟨w, []⟩ r requests, ?_⟩
  intro w' hw'
  have hstart : KeepsFrom w ⟨w, []⟩ := by
    intro w'' hw''
    obtain rfl := List.mem_singleton.mp hw''
    exact .refl w''
  have hkeeps := keeps_answerAll hstart r requests w' hw'
  refine ⟨hkeeps.places, hkeeps.directories, fun place before hbefore => ?_⟩
  obtain ⟨after, hafter, hbecomes⟩ := hkeeps.becomes hbefore
  exact ⟨after, hafter, hbecomes.eq_of, fun source hs => hbecomes.exists_text hs⟩

end History

end Idl
