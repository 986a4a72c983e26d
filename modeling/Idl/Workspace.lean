/-! # Workspaces

A workspace is a directory with all that is in it: files by the names that lead to them, and the
directories on the way. Paths are resolved name by name, from the top or, if they begin with a
slash, from the root of the system. An empty name and `.` stay in place and `..` goes one level up.
Of what lies outside, only the directories above the workspace are known; no name is found there.

* `Workspace.resolve`: where a path leads, or why it leads nowhere.
* `Workspace.load`: the text that a path leads to, or why there is none.
* `Workspace.save`: the workspace with a new text in an existing file.
* `Workspace.remove`: the workspace without what a path leads to.
* `file?_write`: what a file holds after another one, or the file itself, was written. -/

namespace Idl

/-! ### Loading errors

A file is looked up first, then measured, then read; each of these can fail. -/

/-- Why the system refuses a file. -/
inductive Cause where
  | notFound
  | notADirectory
  | isADirectory
  | nameTooLong
  | zeroInPath
  | invalidText
  | other (message : String)
deriving DecidableEq, Repr

/-- A cause as the system words it. -/
def Cause.text : Cause → String
  | notFound => "No such file or directory (os error 2)"
  | notADirectory => "Not a directory (os error 20)"
  | isADirectory => "Is a directory (os error 21)"
  | nameTooLong => "File name too long (os error 36)"
  | zeroInPath => "file name contained an unexpected NUL byte"
  | invalidText => "stream did not contain valid UTF-8"
  | other message => message

/-- The most bytes that a source may have. -/
def maxSourceSize : Nat := 100 * 1024 * 1024

/-- Why a file gives no text. -/
inductive LoadError where
  | access (path : String) (cause : Cause)
  | tooLarge (path : String) (size : Nat)
  | read (path : String) (cause : Cause)
deriving DecidableEq, Repr

/-- The message names the file as it was asked for. -/
def LoadError.message : LoadError → String
  | access path cause => "Cannot access file '" ++ path ++ "': " ++ cause.text
  | tooLarge path size =>
    "Source file '" ++ path ++ "' is too large (" ++ size.repr ++ " bytes, max " ++
      maxSourceSize.repr ++ " bytes)"
  | read path cause => "Error reading file '" ++ path ++ "': " ++ cause.text

/-! ### Contents and places -/

/-- What a file holds: a text, bytes that are no text, or a run of zero bytes. -/
inductive Contents where
  | text (value : String)
  | undecodable (size : Nat)
  | zeros (size : Nat)
deriving DecidableEq, Repr

namespace Contents

/-- The number of bytes. -/
def size : Contents → Nat
  | text value => value.utf8ByteSize
  | undecodable size => size
  | zeros size => size

/-- The text, if the bytes are one. -/
def text? : Contents → Option String
  | text value => some value
  | undecodable _ => none
  | zeros size => some (String.ofList (List.replicate size '\x00'))

/-- Bytes are a text if they are its UTF-8 form. -/
def ofBytes (bytes : ByteArray) : Contents :=
  match String.fromUTF8? bytes with
  | some value => text value
  | none => undecodable bytes.size

end Contents

/-- The names that lead from the top of a workspace to a file or directory. -/
abbrev Place := List String

/-- Where a path can lead: to a place in the workspace, or to some directory outside of it. -/
inductive Location where
  | inside (place : Place)
  | outside
deriving DecidableEq, Repr

/-- One level up. Above the top of a workspace is the outside, and there is no way back. -/
def Location.parent : Location → Location
  | inside [] => outside
  | inside (name :: later) => inside (name :: later).dropLast
  | outside => outside

/-- Where a name leads to from a directory, whether or not there is anything. -/
def Location.enter (here : Location) (name : String) : Location :=
  if name = "" ∨ name = "." then here
  else if name = ".." then here.parent
  else
    match here with
    | inside place => inside (place ++ [name])
    | outside => outside

/-- The place of a location in the workspace. -/
def Location.place? : Location → Option Place
  | inside place => some place
  | outside => none

/-- The most bytes that one name may have. -/
def maxNameSize : Nat := 255

/-- The most bytes that a path may have. -/
def maxPathSize : Nat := 4095

/-- A directory with all that is in it. -/
structure Workspace where
  files : List (Place × Contents)
  directories : List Place
deriving DecidableEq, Repr

namespace Workspace

/-- A workspace with nothing in it. -/
def empty : Workspace := ⟨[], []⟩

/-- What the file at a place holds, if there is a file. -/
def file? (w : Workspace) (place : Place) : Option Contents :=
  (w.files.find? fun file => file.1 = place).map Prod.snd

/-- Whether a place is a directory; the top always is one. -/
def isDirectory (w : Workspace) (place : Place) : Bool := place.isEmpty || place ∈ w.directories

/-- The names in a path. -/
def names (path : String) : List String := (path.toList.splitOn '/').map String.ofList

/-- Where some names lead to from a directory. Names can follow a directory only, and a name is
measured before it is looked up. -/
def walk (w : Workspace) (here : Location) : List String → Except Cause Location
  | [] => .ok here
  | name :: later =>
    if name = "" ∨ name = "." ∨ name = ".." then w.walk (here.enter name) later
    else if name.utf8ByteSize > maxNameSize then .error .nameTooLong
    else
      match here.enter name with
      | .outside => .error .notFound
      | .inside place =>
        if (w.file? place).isSome then
          if later = [] then .ok (.inside place) else .error .notADirectory
        else if w.isDirectory place then w.walk (.inside place) later
        else .error .notFound

/-- Where a path starts: with a slash at the root, else at the top of the workspace. -/
def start (path : String) : Location :=
  if path.toList.head? = some '/' then .outside else .inside []

/-- **Where a path leads.** A path with a zero character is no path at all, the empty path leads
nowhere, and a path is measured as a whole before its first name is looked up. -/
def resolve (w : Workspace) (path : String) : Except Cause Location :=
  if '\x00' ∈ path.toList then .error .zeroInPath
  else if path = "" then .error .notFound
  else if path.utf8ByteSize > maxPathSize then .error .nameTooLong
  else w.walk (start path) (names path)

/-- What the file at a location holds, if there is a file. -/
def contents? (w : Workspace) : Location → Option Contents
  | .inside place => w.file? place
  | .outside => none

/-- **The text that a path leads to**, or why there is none. -/
def load (w : Workspace) (path : String) : Except LoadError String :=
  match w.resolve path with
  | .error cause => .error (.access path cause)
  | .ok location =>
    match w.contents? location with
    | none => .error (.read path .isADirectory)
    | some contents =>
      if contents.size > maxSourceSize then .error (.tooLarge path contents.size)
      else
        match contents.text? with
        | some text => .ok text
        | none => .error (.read path .invalidText)

/-- The workspace with new contents in the file at a place. No file is made. -/
def write (w : Workspace) (place : Place) (contents : Contents) : Workspace :=
  { w with files := w.files.map fun file => if file.1 = place then (file.1, contents) else file }

/-- **The workspace with a new text in the file that a path leads to.** -/
def save (w : Workspace) (path : String) (text : String) : Workspace :=
  match w.resolve path with
  | .ok (.inside place) => w.write place (.text text)
  | .ok .outside => w
  | .error _ => w

/-- **The workspace without what a path leads to** and all that is below. -/
def remove (w : Workspace) (path : String) : Workspace :=
  match w.resolve path with
  | .ok (.inside place) =>
    { files := w.files.filter fun file => !place.isPrefixOf file.1
      directories := w.directories.filter fun directory => !place.isPrefixOf directory }
  | .ok .outside => w
  | .error _ => w

/-! ### Filling a workspace -/

/-- Where a path leads once all directories on the way are made. -/
def destination (path : String) : Location := (names path).foldl Location.enter (start path)

/-- The directories at which some names are looked up. -/
def stops (here : Location) : List String → List Location
  | [] => []
  | name :: later => here :: stops (here.enter name) later

/-- The directories in the workspace on the way to where a path leads. -/
def onTheWay (path : String) : List Place :=
  (stops (start path) (names path)).filterMap Location.place?

/-- Whether there is a file at none of some places, so that they can be directories. -/
def clear (w : Workspace) (places : List Place) : Bool :=
  places.all fun place => (w.file? place).isNone

/-- The workspace with a directory and all those on the way. A file in the way prevents it. -/
def addDirectory (w : Workspace) (path : String) : Workspace :=
  let made := onTheWay path ++ (destination path).place?.toList
  if w.clear made then { w with directories := w.directories ++ made } else w

/-- The workspace with a file, in place of any other at that place, and the directories on the way.
A file in the way prevents it, and so does a directory at that place. -/
def addFile (w : Workspace) (path : String) (contents : Contents) : Workspace :=
  match destination path with
  | .outside => w
  | .inside place =>
    if w.clear (onTheWay path) ∧ ¬w.isDirectory place ∧ place ∉ onTheWay path then
      { files := (w.files.filter fun file => file.1 ≠ place) ++ [(place, contents)]
        directories := w.directories ++ onTheWay path }
    else w

/-- The path of a place. -/
def pathOf (place : Place) : String := String.intercalate "/" place

/-- The files of a workspace that hold another text than before, or are new. -/
def changes (before after : Workspace) : List (String × String) :=
  (after.files.filter fun file => before.file? file.1 ≠ some file.2).map fun file =>
    (pathOf file.1, (file.2.text?).getD "")

/-! ### What writing does -/

/-- Writing makes and removes no file. -/
@[simp] theorem map_fst_write (w : Workspace) (place : Place) (contents : Contents) :
    (w.write place contents).files.map Prod.fst = w.files.map Prod.fst := by
  simp only [write, List.map_map]
  refine List.map_congr_left fun file _ => ?_
  simp only [Function.comp_apply]
  split <;> rfl

/-- After writing, a file that was written to holds the new contents and all others hold what they
held. -/
theorem file?_write (w : Workspace) (place other : Place) (contents : Contents) :
    (w.write place contents).file? other =
      if other = place then (w.file? other).map fun _ => contents else w.file? other := by
  obtain ⟨files, directories⟩ := w
  simp only [write, file?]
  induction files with
  | nil => simp
  | cons file files ih =>
    obtain ⟨at', held⟩ := file
    simp only [List.map_cons, List.find?_cons]
    by_cases h1 : at' = place <;> by_cases h2 : at' = other
    · subst h1; subst h2; simp
    · subst h1
      simp only [↓reduceIte, h2, decide_false]
      exact ih
    · subst h2
      simp [h1]
    · simp only [h1, ↓reduceIte, h2, decide_false]
      exact ih

end Workspace

end Idl
