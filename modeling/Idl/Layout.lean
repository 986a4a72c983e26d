import Idl.Parse
import Idl.Text.Lines

/-! # Layout

The canonical text of a program. Every declaration and every annotation has a line of its own,
indented by the depth of its block; an empty block stays on the line of its heading; blank lines
stand between modules and between the interfaces of a module. Members come in the order of their
declaration. Comments are not part of a program and so not of its layout.

* `Layout.lines`: a program as lines with their depths.
* `Layout.format`: the lines as a text.
* `Layout.formatText`: the canonical text of a source.
* `comparison`: what formatting would change in a source. -/

namespace Idl

/-- How a program is laid out. -/
structure Layout where
  /-- The spaces that a block is indented by. -/
  indentWidth : Nat := 4
  /-- The blank lines between two blocks. -/
  blankLines : Nat := 1
  /-- Whether the modifier that makes no difference is written. -/
  explicitReadWrite : Bool := false
deriving DecidableEq, Repr

namespace Layout

/-- The layout that is used where none is chosen. -/
def standard : Layout := {}

/-- A line of a laid out program. -/
inductive Line where
  | blank
  | entry (depth : Nat) (text : String)
deriving DecidableEq, Repr

/-- A line with its indentation and its end. A blank line is not indented. -/
def lineText (l : Layout) : Line → String
  | .blank => "\n"
  | .entry depth text => String.ofList (List.replicate (depth * l.indentWidth) ' ') ++ text ++ "\n"

/-- Lines as one text. -/
def render (l : Layout) (lines : List Line) : String := String.join (lines.map l.lineText)

/-- The lines of annotations. -/
def annotationLines (depth : Nat) (annotations : List Annotation) : List Line :=
  annotations.map fun a => .entry depth a.text

/-- The modifier of an attribute with a space behind it, where it is written. -/
def modifierText (l : Layout) (v : Visibility) : String :=
  if v ≠ .readWrite ∨ l.explicitReadWrite then v.text ++ " " else ""

/-- The line of a member without its annotations. -/
def memberText (l : Layout) : Member → String
  | .attribute a => l.modifierText a.visibility ++ a.type ++ " " ++ a.name ++ ";"
  | .method m => m.text ++ ";"

/-- The annotations of a member. -/
def memberAnnotations : Member → List Annotation
  | .attribute a => a.annotations
  | .method m => m.annotations

/-- The lines of a member. -/
def memberLines (l : Layout) (depth : Nat) (m : Member) : List Line :=
  annotationLines depth (memberAnnotations m) ++ [.entry depth (l.memberText m)]

/-- The lines of a block; one without a body is closed on its first line. -/
def block (depth : Nat) (heading : String) (body : List Line) : List Line :=
  if body.isEmpty then [.entry depth (heading ++ " \x7b\x7d")]
  else .entry depth (heading ++ " \x7b") :: body ++ [.entry depth "\x7d"]

/-- Blocks with blank lines between them. -/
def spaced (l : Layout) : List (List Line) → List Line
  | [] => []
  | [block] => block
  | block :: later => block ++ List.replicate l.blankLines .blank ++ l.spaced later

/-- The lines of an interface. -/
def interfaceLines (l : Layout) (depth : Nat) (i : Interface) : List Line :=
  annotationLines depth i.annotations ++
    block depth (Keyword.interface.spelling ++ " " ++ i.name)
      (i.members.flatMap (l.memberLines (depth + 1)))

/-- The lines of a module. -/
def moduleLines (l : Layout) (depth : Nat) (m : Module) : List Line :=
  annotationLines depth m.annotations ++
    block depth (Keyword.module.spelling ++ " " ++ m.name)
      (l.spaced (m.interfaces.map (l.interfaceLines (depth + 1))))

/-- **A program as lines.** -/
def lines (l : Layout) (program : List Module) : List Line :=
  l.spaced (program.map (l.moduleLines 0))

/-- **The text of a program.** -/
def format (l : Layout) (program : List Module) : String := l.render (l.lines program)

/-- **The canonical text of a source**, or why it is no program. -/
def formatText (l : Layout) (source : String) : Except SyntaxError String :=
  (parseText source).map l.format

/-- Whether a source is its own canonical text. -/
def isFormatted (source : String) : Except SyntaxError Bool :=
  (standard.formatText source).map fun formatted => source = formatted

/-! ### Small facts -/

@[simp] theorem render_nil (l : Layout) : l.render [] = "" := rfl

/-- Lines are written one behind the other. -/
theorem toList_render (l : Layout) (lines : List Line) :
    (l.render lines).toList = lines.flatMap fun line => (l.lineText line).toList := by
  simp [render, String.toList_join, List.flatMap_map]

/-- A program without modules is laid out as the empty text. -/
@[simp] theorem format_nil (l : Layout) : l.format [] = "" := rfl

end Layout

/-! ### Comparison with the canonical text

A source and its canonical text are compared line by line: line `n` of the one stands beside line
`n` of the other, and a text that has run out of lines goes on with empty ones. Where the two lines
differ, the old one is dropped and the new one put, except that an empty line is not mentioned. -/

namespace Text

/-- A number, filled up with spaces on the left. -/
def padded (width n : Nat) : String :=
  String.ofList (List.replicate (width - n.repr.length) ' ') ++ n.repr

/-- The lines of a text, as texts. -/
def linesOf (text : String) : List String := (lines text.toList).map String.ofList

end Text

/-- A line that one text has and the other has not at this place. -/
inductive Edit where
  | drop (line : Nat) (text : String)
  | put (line : Nat) (text : String)
deriving DecidableEq, Repr

namespace Edit

/-- An edit is written as a sign, the number of the line, and the line. -/
def text : Edit → String
  | drop line text => "-" ++ Text.padded 4 line ++ " | " ++ text ++ "\n"
  | put line text => "+" ++ Text.padded 4 line ++ " | " ++ text ++ "\n"

/-- What is said about one line. -/
def change (line : Nat) (old new : String) : List Edit :=
  if old = new then []
  else
    (if old = "" then [] else [drop line old]) ++ (if new = "" then [] else [put line new])

/-- Two lists of lines side by side, the shorter one filled up with empty lines. -/
def beside (old new : List String) : List (String × String) :=
  List.zipWithAll (fun a b => (a.getD "", b.getD "")) old new

/-- **The edits that lead from some lines to others**, numbered from one. -/
def between (old new : List String) : List Edit :=
  ((beside old new).zipIdx 1).flatMap fun pair => change pair.2 pair.1.1 pair.1.2

end Edit

/-- **What formatting would change in a source:** nothing, or the text of the edits. A source may
differ from its canonical text in line ends alone, and then the text of the edits is empty. -/
def comparison (source : String) : Except SyntaxError (Option String) :=
  (Layout.standard.formatText source).map fun formatted =>
    if source = formatted then none
    else some (String.join ((Edit.between (Text.linesOf source) (Text.linesOf formatted)).map
      Edit.text))

end Idl
