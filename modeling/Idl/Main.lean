import Idl.Command

/-! # The command line

Reads the arguments, answers the request on the files of the system, and prints the outcome. -/

namespace Idl

/-- Why the system refuses a file. Some of its functions negate the code of an error. -/
def causeOf : IO.Error → Cause
  | .noFileOrDirectory .. => .notFound
  | .inappropriateType _ code _ =>
    if code = 21 ∨ code = 0 - 21 then .isADirectory else .notADirectory
  | .invalidArgument _ code details =>
    if code = 36 ∨ code = 0 - 36 then .nameTooLong else .other details
  | error => .other (toString error)

/-- Loads a file of the system. -/
def loadFile (path : String) : IO (Except LoadError String) := do
  try
    let contents := Contents.ofBytes (← IO.FS.readBinFile path)
    if contents.size > maxSourceSize then return .error (.tooLarge path contents.size)
    match contents.text? with
    | some text => return .ok text
    | none => return .error (.read path .invalidText)
  catch error =>
    match causeOf error with
    | .isADirectory => return .error (.read path .isADirectory)
    | cause => return .error (.access path cause)

/-- The files of the system. -/
def disk : FileAccess IO where
  load := loadFile
  save path text := IO.FS.writeFile path text

/-- A short description of the arguments. -/
def usage : String :=
  "usage: gidl check FILES...\n" ++
  "       gidl dump FILE [--json]\n" ++
  "       gidl fmt FILES... [--check] [--diff]\n" ++
  "       gidl lex FILE\n"

/-- Answers the arguments; those that make no sense end with status 2. -/
def runArguments (arguments : List String) : IO UInt32 := do
  match Invocation.ofArguments arguments with
  | .run request =>
    let outcome ← request.answer disk .plain
    IO.print outcome.stdout
    IO.eprint outcome.printedErrors
    return outcome.exitCode.toUInt32
  | .help => IO.print usage; return 0
  | .version => IO.println ("gidl " ++ toolVersion); return 0
  | .refused _ => IO.eprint usage; return 2

end Idl

/-- The command line. -/
def main (arguments : List String) : IO UInt32 := Idl.runArguments arguments
