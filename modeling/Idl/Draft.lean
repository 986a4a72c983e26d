import Idl.Model
import Idl.ParseError

/-! # Drafts

The language nests to a fixed depth: a program holds modules, a module interfaces, an interface
members. So a program can be read token by token without a stack. A *draft* is what has been read so
far: the declarations that are complete, those that are still open, and what the last tokens began.

* `Draft.advance`: the draft behind one more token, if the grammar lets it come next.
* `Draft.refusal`: the error for a token that cannot come next.
* `Draft.clash`: the error for a token that completes a declaration whose name is taken.
* `Draft.read`: the program that a list of tokens makes of a draft. The first end token counts as
  the end of the list, and a list without one ends in an implicit one.
* `advance_end`: the end of the input continues no draft; `isSome_advance_of_clash`: a name clashes
  only at a token that the grammar lets come next. -/

namespace Idl

namespace Token

/-- The visibility that a token spells, if it is a modifier. -/
def visibility? (t : Token) : Option Visibility :=
  match t.kind with
  | .keyword word => Visibility.ofKeyword? word
  | _ => none

/-- The literal that a token is, if an annotation can carry it. -/
def literal? (t : Token) : Option AnnotationValue :=
  match t.kind with
  | .string value => some (.string value)
  | .number spelling => some (.number spelling)
  | .identifier name => some (.word name)
  | _ => none

end Token

/-- What introduces a block: its annotations and its name. -/
structure Heading where
  annotations : List Annotation
  name : String
  span : Span
deriving DecidableEq, Repr

/-- An open module behind the complete ones. -/
structure ModuleBody where
  modules : List Module
  heading : Heading
  interfaces : List Interface
deriving DecidableEq, Repr

/-- All modules, once the open one is closed. -/
def ModuleBody.close (b : ModuleBody) : List Module :=
  b.modules ++ [⟨b.heading.name, b.interfaces, b.heading.annotations, b.heading.span⟩]

/-- An open interface of an open module. -/
structure InterfaceBody where
  outer : ModuleBody
  heading : Heading
  members : List Member
deriving DecidableEq, Repr

namespace InterfaceBody

/-- The module around an interface, once the interface is closed. -/
def close (b : InterfaceBody) : ModuleBody :=
  { b.outer with
    interfaces := b.outer.interfaces ++
      [.ofMembers b.heading.name b.members b.heading.annotations b.heading.span] }

/-- The interface with one more member. -/
def add (b : InterfaceBody) (m : Member) : InterfaceBody :=
  { b with members := b.members ++ [m] }

end InterfaceBody

/-- The innermost place where declarations can stand. -/
inductive Scope where
  | program (modules : List Module)
  | module (body : ModuleBody)
  | interface (body : InterfaceBody)
deriving DecidableEq, Repr

/-- A visibility modifier and where it stands. -/
structure Modifier where
  visibility : Visibility
  span : Span
deriving DecidableEq, Repr

/-- The part of a member in front of its name. -/
structure MemberHeading where
  annotations : List Annotation
  modifier : Option Modifier
  type : String
deriving DecidableEq, Repr

/-- The attribute with a heading and a name; without a modifier it can be read and written. -/
def MemberHeading.attribute (h : MemberHeading) (name : String) (span : Span) : Attribute :=
  ⟨name, h.type, (h.modifier.map Modifier.visibility).getD .readWrite, h.annotations, span⟩

/-- A program read so far, by what was read last. -/
inductive Draft where
  /-- Between declarations, behind annotations that wait for theirs. -/
  | ready (scope : Scope) (pending : List Annotation)
  /-- Behind an at sign. -/
  | annotationSign (scope : Scope) (pending : List Annotation) (sign : Span)
  /-- Behind the name of an annotation, which may go on with a literal. -/
  | annotationName (scope : Scope) (pending : List Annotation) (sign : Span) (name : String)
      (span : Span)
  /-- Behind the parenthesis that opens a literal. -/
  | annotationOpen (scope : Scope) (pending : List Annotation) (sign : Span) (name : String)
  /-- Behind the literal. -/
  | annotationValue (scope : Scope) (pending : List Annotation) (sign : Span) (name : String)
      (value : AnnotationValue)
  /-- Behind the word `module`. -/
  | moduleKeyword (modules : List Module) (annotations : List Annotation)
  /-- Behind the name of a module. -/
  | moduleName (modules : List Module) (heading : Heading)
  /-- Behind the word `interface`. -/
  | interfaceKeyword (body : ModuleBody) (annotations : List Annotation)
  /-- Behind the name of an interface. -/
  | interfaceName (body : ModuleBody) (heading : Heading)
  /-- Behind a visibility modifier. -/
  | memberModifier (body : InterfaceBody) (annotations : List Annotation) (modifier : Modifier)
  /-- Behind the type of a member. -/
  | memberType (body : InterfaceBody) (heading : MemberHeading)
  /-- Behind the name of a member. -/
  | memberName (body : InterfaceBody) (heading : MemberHeading) (name : String) (span : Span)
  /-- Behind the parenthesis that opens a list of parameters. -/
  | parametersOpen (body : InterfaceBody) (method : Method)
  /-- Behind a comma between parameters. -/
  | parameterComma (body : InterfaceBody) (method : Method)
  /-- Behind the type of a parameter. -/
  | parameterType (body : InterfaceBody) (method : Method) (type : String)
  /-- Behind the name of a parameter. -/
  | parameterName (body : InterfaceBody) (method : Method)
  /-- Behind the parenthesis that closes a list of parameters. -/
  | parametersClose (body : InterfaceBody) (method : Method)
deriving DecidableEq, Repr

namespace Draft

/-- The draft of which nothing is read. -/
def empty : Draft := .ready (.program []) []

/-! ### Accepting a token -/

/-- The draft behind a token that stands where a declaration can start. A block closes only when no
annotation waits for its declaration. -/
def accept (scope : Scope) (pending : List Annotation) (t : Token) : Option Draft :=
  if t.isMark .atSign then some (.annotationSign scope pending t.span)
  else
    match scope with
    | .program modules =>
      if t.isWord .module then some (.moduleKeyword modules pending) else none
    | .module body =>
      if t.isWord .interface then some (.interfaceKeyword body pending)
      else if t.isMark .closeBrace && pending.isEmpty then some (.ready (.program body.close) [])
      else none
    | .interface body =>
      if t.isMark .closeBrace && pending.isEmpty then some (.ready (.module body.close) [])
      else
        match t.visibility? with
        | some v => some (.memberModifier body pending ⟨v, t.span⟩)
        | none => t.name?.map fun type => .memberType body ⟨pending, none, type⟩

/-- The draft behind a parameter's type. -/
def acceptParameter (body : InterfaceBody) (method : Method) (t : Token) : Option Draft :=
  t.name?.map fun type => .parameterType body method type

/-- **The draft behind one more token**, if the grammar lets the token come next. -/
def advance (d : Draft) (t : Token) : Option Draft :=
  match d with
  | .ready scope pending => accept scope pending t
  | .annotationSign scope pending sign =>
    t.name?.map fun name => .annotationName scope pending sign name t.span
  | .annotationName scope pending sign name span =>
    if t.isMark .openParen then some (.annotationOpen scope pending sign name)
    else accept scope (pending ++ [⟨name, none, sign.merge span⟩]) t
  | .annotationOpen scope pending sign name =>
    t.literal?.map fun value => .annotationValue scope pending sign name value
  | .annotationValue scope pending sign name value =>
    if t.isMark .closeParen then
      some (.ready scope (pending ++ [⟨name, some value, sign.merge t.span⟩]))
    else none
  | .moduleKeyword modules annotations =>
    t.name?.map fun name => .moduleName modules ⟨annotations, name, t.span⟩
  | .moduleName modules heading =>
    if t.isMark .openBrace then some (.ready (.module ⟨modules, heading, []⟩) []) else none
  | .interfaceKeyword body annotations =>
    t.name?.map fun name => .interfaceName body ⟨annotations, name, t.span⟩
  | .interfaceName body heading =>
    if t.isMark .openBrace then some (.ready (.interface ⟨body, heading, []⟩) []) else none
  | .memberModifier body annotations modifier =>
    t.name?.map fun type => .memberType body ⟨annotations, some modifier, type⟩
  | .memberType body heading =>
    t.name?.map fun name => .memberName body heading name t.span
  | .memberName body heading name span =>
    if t.isMark .semicolon then
      some (.ready (.interface (body.add (.attribute (heading.attribute name span)))) [])
    else if t.isMark .openParen && heading.modifier.isNone then
      some (.parametersOpen body ⟨heading.type, name, [], heading.annotations, span⟩)
    else none
  | .parametersOpen body method =>
    if t.isMark .closeParen then some (.parametersClose body method)
    else acceptParameter body method t
  | .parameterComma body method => acceptParameter body method t
  | .parameterType body method type =>
    t.name?.map fun name => .parameterName body
      { method with parameters := method.parameters ++ [⟨type, name, t.span⟩] }
  | .parameterName body method =>
    if t.isMark .comma then some (.parameterComma body method)
    else if t.isMark .closeParen then some (.parametersClose body method)
    else none
  | .parametersClose body method =>
    if t.isMark .semicolon then some (.ready (.interface (body.add (.method method))) []) else none

/-! ### Refusing a token -/

/-- What has to come behind annotations. -/
def declaration : Scope → Expected
  | .program _ => .moduleKeyword
  | .module _ => .interfaceKeyword
  | .interface _ => .typeName

/-- The error for a token that stands where a declaration can start. -/
def refusalBetween (scope : Scope) (pending : List Annotation) (t : Token) : ParseError :=
  match pending.getLast? with
  | some last =>
    if t.isEnd || t.isMark .closeBrace then .dangling t last.span
    else .unexpectedToken (declaration scope) t
  | none =>
    match scope with
    | .program _ => .trailingInput t
    | .module _ => .unexpectedToken .interfaceOrClose t
    | .interface _ => .unexpectedToken .memberOrClose t

/-- **The error for a token that cannot come next.** -/
def refusal (d : Draft) (t : Token) : ParseError :=
  match d with
  | .ready scope pending => refusalBetween scope pending t
  | .annotationSign .. => .unexpectedToken .annotationName t
  | .annotationName scope pending sign name span =>
    refusalBetween scope (pending ++ [⟨name, none, sign.merge span⟩]) t
  | .annotationOpen .. => .unexpectedToken .annotationValue t
  | .annotationValue .. => .unexpectedToken .closeParen t
  | .moduleKeyword .. => .unexpectedToken .moduleName t
  | .moduleName .. => .unexpectedToken .openBrace t
  | .interfaceKeyword .. => .unexpectedToken .interfaceName t
  | .interfaceName .. => .unexpectedToken .openBrace t
  | .memberModifier .. => .unexpectedToken .typeName t
  | .memberType .. => .unexpectedToken .memberName t
  | .memberName _ heading name _ =>
    match heading.modifier with
    | some modifier =>
      if t.isMark .openParen then .visibilityOnMethod name modifier.span
      else .unexpectedToken .openParenOrSemicolon t
    | none => .unexpectedToken .openParenOrSemicolon t
  | .parametersOpen .. => .unexpectedToken .typeName t
  | .parameterComma .. => .unexpectedToken .typeName t
  | .parameterType .. => .unexpectedToken .parameterName t
  | .parameterName .. => .unexpectedToken .closeParen t
  | .parametersClose .. => .unexpectedToken .semicolon t

/-! ### Repeated names -/

/-- The first attribute of a name among some members. -/
def attributeNamed? (members : List Member) (name : String) : Option Attribute :=
  (members.filterMap Member.attribute?).find? fun a => a.name = name

/-- **The error for a token that completes a declaration whose name is taken.** A semicolon
completes an attribute, a closing brace an interface or a module. A repeated attribute or interface
is reported at its name, a repeated module at the brace that closes it. -/
def clash (d : Draft) (t : Token) : Option ParseError :=
  match d with
  | .memberName body _ name span =>
    if t.isMark .semicolon then
      (attributeNamed? body.members name).map fun first =>
        .duplicateName .attribute name span first.span
    else none
  | .ready (.interface body) [] =>
    if t.isMark .closeBrace then
      (body.outer.interfaces.find? fun i => i.name = body.heading.name).map fun first =>
        .duplicateName .interface body.heading.name body.heading.span first.span
    else none
  | .ready (.module body) [] =>
    if t.isMark .closeBrace then
      (body.modules.find? fun m => m.name = body.heading.name).map fun first =>
        .duplicateName .module body.heading.name t.span first.span
    else none
  | _ => none

/-! ### Reading -/

/-- The draft behind one more token, or why there is none. -/
def step (d : Draft) (t : Token) : Except ParseError Draft :=
  match d.clash t with
  | some error => .error error
  | none =>
    match d.advance t with
    | some next => .ok next
    | none => .error (d.refusal t)

/-- The program of a draft at the end of the input: nothing may be open or pending. -/
def finish (d : Draft) (t : Token) : Except ParseError (List Module) :=
  match d with
  | .ready (.program modules) [] => .ok modules
  | d => .error (d.refusal t)

/-- **The program that a list of tokens makes of a draft.** -/
def read (d : Draft) : List Token → Except ParseError (List Module)
  | [] => d.finish .implicitEnd
  | t :: later =>
    if t.isEnd then d.finish t
    else
      match d.step t with
      | .ok next => next.read later
      | .error error => .error error

/-! ### One token at a time -/

theorem accept_end {scope : Scope} {pending : List Annotation} {t : Token} (h : t.isEnd = true) :
    accept scope pending t = none := by
  have hk := Token.isEnd_iff.mp h
  cases scope <;> simp [accept, Token.isMark, Token.isWord, Token.visibility?, Token.name?, hk]

/-- The end of the input continues no draft. -/
theorem advance_end (d : Draft) {t : Token} (h : t.isEnd = true) : d.advance t = none := by
  have hk := Token.isEnd_iff.mp h
  cases d <;> simp [advance, accept_end h, acceptParameter, Token.isMark, Token.name?,
    Token.literal?, hk]

theorem step_eq_ok_iff {d next : Draft} {t : Token} :
    d.step t = .ok next ↔ d.clash t = none ∧ d.advance t = some next := by
  unfold step
  cases d.clash t <;> cases d.advance t <;> simp

/-- A token that completes a declaration is one that the grammar lets come next. -/
theorem isSome_advance_of_clash {d : Draft} {t : Token} {error : ParseError}
    (h : d.clash t = some error) : (d.advance t).isSome = true := by
  unfold clash at h
  split at h
  · split at h
    · next hm => simp [advance, hm]
    · cases h
  · split at h
    · next hm =>
      have hk := Token.isMark_iff.mp hm
      simp [advance, accept, Token.isMark, hk]
    · cases h
  · split at h
    · next hm =>
      have hk := Token.isMark_iff.mp hm
      simp [advance, accept, Token.isMark, Token.isWord, hk]
    · cases h
  · cases h

@[simp] theorem read_nil (d : Draft) : d.read [] = d.finish .implicitEnd := rfl

theorem read_end (d : Draft) {t : Token} (h : t.isEnd = true) (later : List Token) :
    d.read (t :: later) = d.finish t := by
  simp only [read, h, if_true]

theorem read_cons {d next : Draft} {t : Token} (h : d.step t = .ok next) (later : List Token) :
    d.read (t :: later) = next.read later := by
  have hend : t.isEnd = false := by
    refine Bool.eq_false_iff.mpr fun he => ?_
    have ha := (step_eq_ok_iff.mp h).2
    rw [advance_end d he] at ha
    cases ha
  simp only [read, hend, Bool.false_eq_true, if_false, h]

end Draft

end Idl
