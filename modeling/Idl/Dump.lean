import Idl.Model

/-! # Dumps

Two ways to show a program. Its outline has one line for each declaration: what it is, its
annotations, and the line and column of its name; members come in the order of their declaration.
Its JSON form keeps the fields of objects in the order given here; numbers are natural numbers, and
the text is indented by two spaces, with empty arrays and objects on one line. -/

namespace Idl

namespace Outline

/-- One line of an outline. -/
def line (depth : Nat) (head : String) (annotations : List Annotation) (span : Span) : String :=
  String.ofList (List.replicate (2 * depth) ' ') ++ head ++
    String.join (annotations.map fun a => " " ++ a.text) ++ " [" ++ span.text ++ "]\n"

/-- The line of a member. -/
def ofMember : Member → String
  | .attribute a => line 2 ("attribute " ++ a.text) a.annotations a.span
  | .method m => line 2 ("method " ++ m.text) m.annotations m.span

/-- The lines of an interface. -/
def ofInterface (i : Interface) : String :=
  line 1 ("interface " ++ i.name) i.annotations i.span ++ String.join (i.members.map ofMember)

/-- The lines of a module. -/
def ofModule (m : Module) : String :=
  line 0 ("module " ++ m.name) m.annotations m.span ++ String.join (m.interfaces.map ofInterface)

/-- **The outline of a program.** -/
def ofProgram (program : List Module) : String := String.join (program.map ofModule)

end Outline

/-! ### JSON -/

/-- A JSON value whose numbers are natural and whose objects keep their order. -/
inductive Json where
  | null
  | number (n : Nat)
  | string (value : String)
  | array (items : List Json)
  | object (fields : List (String × Json))
deriving Repr

namespace Json

/-! ### Text -/

/-- A control character without a short form is written with four hexadecimal digits. -/
def controlText (c : Char) : List Char :=
  let digits := Nat.toDigits 16 c.toNat
  ['\\', 'u'] ++ List.replicate (4 - digits.length) '0' ++ digits

/-- One character of a string. -/
def charText (c : Char) : List Char :=
  if c = '"' then ['\\', '"']
  else if c = '\\' then ['\\', '\\']
  else if c = '\x08' then ['\\', 'b']
  else if c = '\x0c' then ['\\', 'f']
  else if c = '\n' then ['\\', 'n']
  else if c = '\r' then ['\\', 'r']
  else if c = '\t' then ['\\', 't']
  else if c.toNat < 32 then controlText c
  else [c]

/-- A string with its quotes. -/
def stringText (value : String) : String :=
  "\"" ++ String.ofList (value.toList.flatMap charText) ++ "\""

/-- The start of a line at a depth. -/
def indent (depth : Nat) : String := String.ofList (List.replicate (2 * depth) ' ')

/-- Items between brackets, each on a line of its own. -/
def bracketed (depth : Nat) (opening closing : String) (items : List String) : String :=
  if items.isEmpty then opening ++ closing
  else
    opening ++ "\n" ++ String.intercalate ",\n" (items.map (indent (depth + 1) ++ ·)) ++ "\n" ++
      indent depth ++ closing

mutual

/-- **The text of a value**, at a depth. -/
def pretty (depth : Nat) : Json → String
  | null => "null"
  | number n => n.repr
  | string value => stringText value
  | array items => bracketed depth "[" "]" (prettyItems (depth + 1) items)
  | object fields => bracketed depth "\x7b" "\x7d" (prettyFields (depth + 1) fields)

/-- The texts of the items of an array. -/
def prettyItems (depth : Nat) : List Json → List String
  | [] => []
  | item :: items => pretty depth item :: prettyItems depth items

/-- The texts of the fields of an object. -/
def prettyFields (depth : Nat) : List (String × Json) → List String
  | [] => []
  | (key, value) :: fields =>
    (stringText key ++ ": " ++ pretty depth value) :: prettyFields depth fields

end

/-! ### Programs -/

/-- A span, as its four numbers. -/
def ofSpan (s : Span) : Json :=
  object [("start", number s.start), ("end", number s.stop), ("line", number s.line),
    ("column", number s.column)]

/-- A literal, under the name of its sort. -/
def ofValue : AnnotationValue → Json
  | .string value => object [("String", string value)]
  | .number spelling => object [("Number", string spelling)]
  | .word name => object [("Word", string name)]

/-- An annotation; one without a literal has the value null. -/
def ofAnnotation (a : Annotation) : Json :=
  object [("name", string a.name), ("value", (a.value.map ofValue).getD null),
    ("span", ofSpan a.span)]

/-- Annotations in order. -/
def ofAnnotations (annotations : List Annotation) : Json := array (annotations.map ofAnnotation)

/-- A visibility, by name. -/
def ofVisibility : Visibility → Json
  | .readOnly => string "Readable"
  | .writeOnly => string "Writable"
  | .readWrite => string "ReadWrite"

/-- An attribute. -/
def ofAttribute (a : Attribute) : Json :=
  object [("name", string a.name), ("type", string a.type),
    ("visibility", ofVisibility a.visibility), ("annotations", ofAnnotations a.annotations),
    ("span", ofSpan a.span)]

/-- A parameter. -/
def ofParameter (p : Parameter) : Json :=
  object [("type", string p.type), ("name", string p.name), ("span", ofSpan p.span)]

/-- A method. -/
def ofMethod (m : Method) : Json :=
  object [("return_type", string m.returnType), ("name", string m.name),
    ("parameters", array (m.parameters.map ofParameter)),
    ("annotations", ofAnnotations m.annotations), ("span", ofSpan m.span)]

/-- The sort of a member, by name. -/
def ofKind : MemberKind → Json
  | .attribute => string "attribute"
  | .method => string "method"

/-- An interface: its two lists of members and the order in which they take turns. -/
def ofInterface (i : Interface) : Json :=
  object [("name", string i.name), ("attributes", array (i.attributes.map ofAttribute)),
    ("methods", array (i.methods.map ofMethod)), ("order", array (i.order.map ofKind)),
    ("annotations", ofAnnotations i.annotations), ("span", ofSpan i.span)]

/-- A module. -/
def ofModule (m : Module) : Json :=
  object [("name", string m.name), ("interfaces", array (m.interfaces.map ofInterface)),
    ("annotations", ofAnnotations m.annotations), ("span", ofSpan m.span)]

/-- **A program as a JSON value.** -/
def ofProgram (program : List Module) : Json := array (program.map ofModule)

end Json

end Idl
