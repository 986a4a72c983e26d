import Idl.Span
import Idl.Text.Quoted
import Idl.Vocabulary

/-! # Model

A program is a list of modules, a module a named list of interfaces, and an interface a named group
of attributes and methods. The span of a declaration is that of its name. Types are names that
nothing resolves here.

An interface keeps its attributes and its methods in two lists, and beside them the order in which
the two sorts of members take turns. `Interface.members` replays that order.

* `Visibility.ofBits?_bits`, `Visibility.ofKeyword?_keyword`: both encodings of a visibility can be
  undone.
* `Interface.members_ofMembers`: an interface built from members has these members, in this order.
* `Interface.members_ofGroups`: one built from attributes and methods has the attributes first. -/

namespace Idl

/-! ### Visibility

Whether an attribute may be read, written or both: a nonempty set of two flags, encoded in two bits,
with a modifier keyword for each. -/

/-- The ways in which an attribute may be used. -/
inductive Visibility where
  | readOnly
  | writeOnly
  | readWrite
deriving DecidableEq, Repr

namespace Visibility

/-- Bit 0 is set if the attribute can be read, bit 1 if it can be written. -/
def bits : Visibility → Nat
  | readOnly => 1
  | writeOnly => 2
  | readWrite => 3

/-- The visibility with the given bits; none of the bits, and other bits, mean nothing. -/
def ofBits? : Nat → Option Visibility
  | 1 => some readOnly
  | 2 => some writeOnly
  | 3 => some readWrite
  | _ => none

/-- Whether the attribute can be read. -/
def isReadable (v : Visibility) : Bool := v.bits.testBit 0

/-- Whether the attribute can be written. -/
def isWritable (v : Visibility) : Bool := v.bits.testBit 1

/-- The modifier that spells a visibility. -/
def keyword : Visibility → Keyword
  | readOnly => .readonly
  | writeOnly => .writeonly
  | readWrite => .readwrite

/-- The visibility that a keyword spells, if it is a modifier. -/
def ofKeyword? : Keyword → Option Visibility
  | .readonly => some readOnly
  | .writeonly => some writeOnly
  | .readwrite => some readWrite
  | .module | .interface => none

/-- A visibility is written as its modifier. -/
def text (v : Visibility) : String := v.keyword.spelling

theorem ofBits?_bits (v : Visibility) : ofBits? v.bits = some v := by cases v <;> rfl

theorem ofKeyword?_keyword (v : Visibility) : ofKeyword? v.keyword = some v := by cases v <;> rfl

theorem keyword_of_ofKeyword? {k : Keyword} {v : Visibility} (h : ofKeyword? k = some v) :
    v.keyword = k := by
  cases k <;> cases h <;> rfl

/-- An attribute can be read or written. -/
theorem isReadable_or_isWritable (v : Visibility) : (v.isReadable || v.isWritable) = true := by
  cases v <;> rfl

end Visibility

/-! ### Annotations

An annotation is a name with an at sign, such as `@deprecated`, and may carry one literal in
parentheses, such as `@default("x")`. Numbers keep their spelling. -/

/-- The literal that an annotation carries. -/
inductive AnnotationValue where
  | string (value : String)
  | number (spelling : String)
  | word (name : String)
deriving DecidableEq, Repr

/-- A literal as it is written: strings are quoted, numbers and words stand for themselves. -/
def AnnotationValue.text : AnnotationValue → String
  | string value => Text.Quoted.quote value
  | number spelling => spelling
  | word name => name

/-- A tag on a declaration; its span runs from the at sign to its last token. -/
structure Annotation where
  name : String
  value : Option AnnotationValue
  span : Span
deriving DecidableEq, Repr

namespace Annotation

/-- An annotation as it is written. -/
def text (a : Annotation) : String :=
  "@" ++ a.name ++
    match a.value with
    | some value => "(" ++ value.text ++ ")"
    | none => ""

/-- The first annotation of a name. -/
def find? (annotations : List Annotation) (name : String) : Option Annotation :=
  annotations.find? fun a => a.name = name

end Annotation

/-! ### Members -/

/-- A value that an interface exposes. -/
structure Attribute where
  name : String
  type : String
  visibility : Visibility
  annotations : List Annotation
  span : Span
deriving DecidableEq, Repr

/-- An attribute with its modifier, also where the source leaves it out. -/
def Attribute.text (a : Attribute) : String :=
  a.visibility.text ++ " " ++ a.type ++ " " ++ a.name

/-- A parameter of a method. -/
structure Parameter where
  type : String
  name : String
  span : Span
deriving DecidableEq, Repr

/-- A parameter as it is written. -/
def Parameter.text (p : Parameter) : String := p.type ++ " " ++ p.name

/-- An operation of an interface. Methods may share a name. -/
structure Method where
  returnType : String
  name : String
  parameters : List Parameter
  annotations : List Annotation
  span : Span
deriving DecidableEq, Repr

namespace Method

/-- The types of the parameters in order, by which methods of one name differ. -/
def parameterTypes (m : Method) : List String := m.parameters.map Parameter.type

/-- A method as it is written, without its semicolon. -/
def text (m : Method) : String :=
  m.returnType ++ " " ++ m.name ++ "(" ++ String.intercalate ", " (m.parameters.map Parameter.text)
    ++ ")"

end Method

/-- A member of either sort. -/
inductive Member where
  | attribute (a : Attribute)
  | method (m : Method)
deriving DecidableEq, Repr

/-- The sorts of members. -/
inductive MemberKind where
  | attribute
  | method
deriving DecidableEq, Repr

namespace Member

/-- The sort of a member. -/
def kind : Member → MemberKind
  | .attribute _ => .attribute
  | .method _ => .method

/-- The name of a member. -/
def name : Member → String
  | .attribute a => a.name
  | .method m => m.name

/-- The attribute that a member is, if it is one. -/
def attribute? : Member → Option Attribute
  | .attribute a => some a
  | .method _ => none

/-- The method that a member is, if it is one. -/
def method? : Member → Option Method
  | .attribute _ => none
  | .method m => some m

end Member

/-! ### Interfaces -/

/-- A named group of attributes and methods. -/
structure Interface where
  name : String
  attributes : List Attribute
  methods : List Method
  order : List MemberKind
  annotations : List Annotation
  span : Span
deriving DecidableEq, Repr

namespace Interface

/-- Members drawn from two lists in a given order; a turn whose list is used up is passed over. -/
def replay : List MemberKind → List Attribute → List Method → List Member
  | [], _, _ => []
  | .attribute :: order, a :: attributes, methods =>
    .attribute a :: replay order attributes methods
  | .attribute :: order, [], methods => replay order [] methods
  | .method :: order, attributes, m :: methods => .method m :: replay order attributes methods
  | .method :: order, attributes, [] => replay order attributes []

/-- **The members in the order of their declaration.** -/
def members (i : Interface) : List Member := replay i.order i.attributes i.methods

/-- An interface from its members in order. -/
def ofMembers (name : String) (members : List Member) (annotations : List Annotation)
    (span : Span) : Interface where
  name := name
  attributes := members.filterMap Member.attribute?
  methods := members.filterMap Member.method?
  order := members.map Member.kind
  annotations := annotations
  span := span

/-- An interface whose attributes stand before its methods. -/
def ofGroups (name : String) (attributes : List Attribute) (methods : List Method)
    (annotations : List Annotation) (span : Span) : Interface where
  name := name
  attributes := attributes
  methods := methods
  order := List.replicate attributes.length .attribute ++ List.replicate methods.length .method
  annotations := annotations
  span := span

/-- Whether an interface declares nothing. -/
def isEmpty (i : Interface) : Bool := i.order.isEmpty

/-- The first attribute of a name. -/
def attribute? (i : Interface) (name : String) : Option Attribute :=
  i.attributes.find? fun a => a.name = name

/-- All methods of a name, in the order of their declaration. -/
def methodsNamed (i : Interface) (name : String) : List Method :=
  i.methods.filter fun m => m.name = name

theorem replay_kinds (members : List Member) :
    replay (members.map Member.kind) (members.filterMap Member.attribute?)
      (members.filterMap Member.method?) = members := by
  induction members with
  | nil => rfl
  | cons m members ih =>
    cases m <;>
      simp [List.filterMap_cons, Member.kind, Member.attribute?, Member.method?, replay, ih]

/-- The members that an interface was built from are its members. -/
@[simp] theorem members_ofMembers (name : String) (members : List Member)
    (annotations : List Annotation) (span : Span) :
    (ofMembers name members annotations span).members = members :=
  replay_kinds members

theorem replay_methods (methods : List Method) (attributes : List Attribute) :
    replay (List.replicate methods.length .method) attributes methods =
      methods.map Member.method := by
  induction methods with
  | nil => rfl
  | cons m methods ih => simp [List.replicate_succ, replay, ih]

theorem replay_groups (attributes : List Attribute) (methods : List Method) :
    replay (List.replicate attributes.length .attribute ++ List.replicate methods.length .method)
      attributes methods = attributes.map Member.attribute ++ methods.map Member.method := by
  induction attributes with
  | nil => simpa using replay_methods methods []
  | cons a attributes ih => simp [List.replicate_succ, replay, ih]

/-- Attributes come before methods in an interface built from the two groups. -/
@[simp] theorem members_ofGroups (name : String) (attributes : List Attribute)
    (methods : List Method) (annotations : List Annotation) (span : Span) :
    (ofGroups name attributes methods annotations span).members =
      attributes.map Member.attribute ++ methods.map Member.method :=
  replay_groups attributes methods

end Interface

/-! ### Modules -/

/-- A named group of interfaces. -/
structure Module where
  name : String
  interfaces : List Interface
  annotations : List Annotation
  span : Span
deriving DecidableEq, Repr

/-- The first interface of a name. -/
def Module.interface? (m : Module) (name : String) : Option Interface :=
  m.interfaces.find? fun i => i.name = name

end Idl
