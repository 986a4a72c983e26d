/-! # Invocations

What a list of arguments asks for: a request, help, the version, or nothing that makes sense. The
first argument that settles the question settles it, and nothing behind it is looked at.

An argument is an option in long form (`--json`, perhaps with a value behind an equals sign), a
cluster of short options (`-h`), the separator `--`, or a word. Behind the separator everything is a
word. A single dash is a word. -/

namespace Idl

/-- How sources are formatted: in place, or only looked at. -/
structure FormatMode where
  /-- Say which files would change. -/
  check : Bool
  /-- Show what would change. -/
  diff : Bool
deriving DecidableEq, Repr

/-- Whether files are changed. -/
def FormatMode.writes (m : FormatMode) : Bool := !m.check && !m.diff

/-- What can be asked for. -/
inductive Request where
  | check (paths : List String)
  | dump (path : String) (json : Bool)
  | format (paths : List String) (mode : FormatMode)
  | lex (path : String)
deriving DecidableEq, Repr

/-- Why arguments make no sense. -/
inductive Refusal where
  | missingSubcommand
  | invalidSubcommand
  | unknownArgument
  | argumentConflict
  | tooManyValues
  | invalidValue
  | missingArgument
deriving DecidableEq, Repr

/-- What a list of arguments comes to. -/
inductive Invocation where
  | run (request : Request)
  | help
  | version
  | refused (reason : Refusal)
deriving DecidableEq, Repr

/-! ### Arguments -/

/-- The forms of an argument. -/
inductive Argument where
  | separator
  /-- A long option, and whether a value is attached to it. -/
  | long (name : String) (valued : Bool)
  /-- A cluster of short options, by its first letter. -/
  | short (letter : Char)
  | word
deriving DecidableEq, Repr

/-- The form of an argument. -/
def Argument.ofText (text : String) : Argument :=
  match text.toList with
  | ['-', '-'] => .separator
  | '-' :: '-' :: option =>
    .long (String.ofList (option.takeWhile (· ≠ '='))) (option.contains '=')
  | '-' :: letter :: _ => .short letter
  | _ => .word

/-! ### Subcommands -/

/-- The first word of a request. -/
inductive Subcommand where
  | check
  | dump
  | format
  | lex
deriving DecidableEq, Repr

namespace Subcommand

/-- The subcommand that a word names. -/
def ofText? (word : String) : Option Subcommand :=
  if word = "check" then some check
  else if word = "dump" then some dump
  else if word = "fmt" then some format
  else if word = "lex" then some lex
  else none

/-- The options that a subcommand knows, help aside. -/
def flags : Subcommand → List String
  | check => []
  | dump => ["json"]
  | format => ["check", "diff"]
  | lex => []

/-- Whether a subcommand takes more than one file. -/
def takesMany : Subcommand → Bool
  | check | format => true
  | dump | lex => false

end Subcommand

/-- What is gathered from the arguments of a subcommand. -/
structure Gathered where
  files : List String
  flags : List String
deriving DecidableEq, Repr

namespace Gathered

/-- One more file; where only one is taken, a second one is not known. -/
def addFile (g : Gathered) (c : Subcommand) (file : String) : Except Invocation Gathered :=
  if c.takesMany || g.files.isEmpty then .ok { g with files := g.files ++ [file] }
  else .error (.refused .unknownArgument)

/-- One more option that the subcommand knows. Before it counts, the files in front of it must have
names. -/
def addFlag (g : Gathered) (name : String) : Except Invocation Gathered :=
  if "" ∈ g.files then .error (.refused .invalidValue)
  else if name = "help" then .error .help
  else if name ∈ g.flags then .error (.refused .argumentConflict)
  else .ok { g with flags := g.flags ++ [name] }

/-- One more long option. None of them takes a value. -/
def addLong (g : Gathered) (c : Subcommand) (name : String) (valued : Bool) :
    Except Invocation Gathered :=
  if name = "help" ∨ name ∈ c.flags then
    if valued then .error (.refused .tooManyValues) else g.addFlag name
  else .error (.refused .unknownArgument)

/-- One more cluster of short options. Only help has a short form, and nothing behind it counts. -/
def addShort (g : Gathered) (letter : Char) : Except Invocation Gathered :=
  if letter = 'h' then g.addFlag "help" else .error (.refused .unknownArgument)

/-- All arguments of a subcommand. -/
def addAll (g : Gathered) (c : Subcommand) : List String → Except Invocation Gathered
  | [] => .ok g
  | text :: later =>
    match Argument.ofText text with
    | .separator => later.foldlM (fun g file => g.addFile c file) g
    | .long name valued => (g.addLong c name valued).bind fun g => g.addAll c later
    | .short letter => (g.addShort letter).bind fun g => g.addAll c later
    | .word => (g.addFile c text).bind fun g => g.addAll c later

/-- The request of a subcommand: its files must have names, and there must be one. -/
def request (g : Gathered) (c : Subcommand) : Invocation :=
  if "" ∈ g.files then .refused .invalidValue
  else
    match g.files with
    | [] => .refused .missingArgument
    | file :: _ =>
      match c with
      | .check => .run (.check g.files)
      | .dump => .run (.dump file ("json" ∈ g.flags))
      | .format => .run (.format g.files ⟨"check" ∈ g.flags, "diff" ∈ g.flags⟩)
      | .lex => .run (.lex file)

end Gathered

namespace Invocation

/-- Help may be asked for one subcommand, help included, and for no more. -/
def helpOn : List String → Invocation
  | [] => .help
  | [word] =>
    if (Subcommand.ofText? word).isSome ∨ word = "help" then .help
    else .refused .invalidSubcommand
  | _ => .refused .invalidSubcommand

/-- A subcommand with its arguments. -/
def ofSubcommand (c : Subcommand) (arguments : List String) : Invocation :=
  match Gathered.addAll ⟨[], []⟩ c arguments with
  | .ok g => g.request c
  | .error result => result

/-- **What a list of arguments asks for.** -/
def ofArguments : List String → Invocation
  | [] => .refused .missingSubcommand
  | text :: later =>
    match Argument.ofText text with
    | .separator =>
      match later with
      | [] => .refused .missingSubcommand
      | word :: _ =>
        if (Subcommand.ofText? word).isSome ∨ word = "help" then .refused .unknownArgument
        else .refused .invalidSubcommand
    | .long name valued =>
      if name = "help" ∨ name = "version" then
        if valued then .refused .tooManyValues
        else if name = "help" then .help
        else .version
      else .refused .unknownArgument
    | .short letter =>
      if letter = 'h' then .help
      else if letter = 'V' then .version
      else .refused .unknownArgument
    | .word =>
      if text = "help" then helpOn later
      else
        match Subcommand.ofText? text with
        | some c => ofSubcommand c later
        | none => .refused .invalidSubcommand

end Invocation

end Idl
