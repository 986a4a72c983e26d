import Idl.Draft

/-! # The grammar

The rules of the language, each as a relation between the tokens that a rule derives and what these
tokens stand for:

    Program       := ModuleDecl*
    ModuleDecl    := Annotation* 'module' Identifier '{' InterfaceDecl* '}'
    InterfaceDecl := Annotation* 'interface' Identifier '{' Member* '}'
    Member        := AttributeDecl | MethodDecl
    AttributeDecl := Annotation* Visibility? Type Identifier ';'
    MethodDecl    := Annotation* Type Identifier '(' ParamList? ')' ';'
    ParamList     := Param (',' Param)*
    Param         := Type Identifier
    Annotation    := '@' Identifier ('(' Literal ')')?

The rules look at the kinds of the tokens only. A declaration has the span of its name, and an
annotation the span from its sign to its last token. No rule speaks about repeated names.

* `Many.snoc`, `ParameterList.snoc`: lists are derived from the left, and can be extended on the
  right.
* `Sentence`, `Viable`: the lists of tokens that are programs, and those that begin one.
* `TokenKind.token`: a token of a kind, where it does not matter where the token stands. -/

namespace Idl

/-- The span that stands for all others. -/
def Span.nowhere : Span := .point .start

/-- A token apart from where it stands. -/
def TokenKind.token (kind : TokenKind) : Token := ⟨kind, .nowhere⟩

namespace Grammar

/-- Any number of pieces of one sort, one behind the other. -/
inductive Many {α : Type} (piece : List Token → α → Prop) : List Token → List α → Prop where
  | nil : Many piece [] []
  | cons {ts us : List Token} {a : α} {as : List α} (first : piece ts a)
      (later : Many piece us as) : Many piece (ts ++ us) (a :: as)

/-- The literals that an annotation can carry. -/
inductive Literal : TokenKind → AnnotationValue → Prop where
  | string (value : String) : Literal (.string value) (.string value)
  | number (spelling : String) : Literal (.number spelling) (.number spelling)
  | word (name : String) : Literal (.identifier name) (.word name)

/-- The modifiers and what they say about an attribute. -/
inductive Modifies : TokenKind → Visibility → Prop where
  | readonly : Modifies (.keyword .readonly) .readOnly
  | writeonly : Modifies (.keyword .writeonly) .writeOnly
  | readwrite : Modifies (.keyword .readwrite) .readWrite

/-- An annotation, with a literal or without. -/
inductive AnnotationDecl : List Token → Annotation → Prop where
  | bare {sign word : Token} {name : String} (hs : sign.kind = .punctuation .atSign)
      (hn : word.kind = .identifier name) :
      AnnotationDecl [sign, word] ⟨name, none, sign.span.merge word.span⟩
  | valued {sign word opening literal closing : Token} {name : String} {value : AnnotationValue}
      (hs : sign.kind = .punctuation .atSign) (hn : word.kind = .identifier name)
      (ho : opening.kind = .punctuation .openParen) (hv : Literal literal.kind value)
      (hc : closing.kind = .punctuation .closeParen) :
      AnnotationDecl [sign, word, opening, literal, closing]
        ⟨name, some value, sign.span.merge closing.span⟩

/-- A parameter is a type and a name. -/
inductive ParameterDecl : List Token → Parameter → Prop where
  | mk {type word : Token} {typeName name : String} (ht : type.kind = .identifier typeName)
      (hn : word.kind = .identifier name) : ParameterDecl [type, word] ⟨typeName, name, word.span⟩

/-- Parameters with commas between them, at least one. -/
inductive ParameterList : List Token → List Parameter → Prop where
  | one {ts : List Token} {p : Parameter} (hp : ParameterDecl ts p) : ParameterList ts [p]
  | cons {ts us : List Token} {comma : Token} {p : Parameter} {ps : List Parameter}
      (hp : ParameterDecl ts p) (hc : comma.kind = .punctuation .comma)
      (later : ParameterList us ps) : ParameterList (ts ++ comma :: us) (p :: ps)

/-- What may stand between the parentheses of a method. -/
inductive Parameters : List Token → List Parameter → Prop where
  | none : Parameters [] []
  | list {ts : List Token} {ps : List Parameter} (h : ParameterList ts ps) : Parameters ts ps

/-- The part of a member in front of its name. -/
inductive MemberStart : List Token → MemberHeading → Prop where
  | plain {ts : List Token} {type : Token} {annotations : List Annotation} {typeName : String}
      (ha : Many AnnotationDecl ts annotations) (ht : type.kind = .identifier typeName) :
      MemberStart (ts ++ [type]) ⟨annotations, none, typeName⟩
  | modified {ts : List Token} {modifier type : Token} {annotations : List Annotation}
      {v : Visibility} {typeName : String} (ha : Many AnnotationDecl ts annotations)
      (hm : Modifies modifier.kind v) (ht : type.kind = .identifier typeName) :
      MemberStart (ts ++ [modifier, type]) ⟨annotations, some ⟨v, modifier.span⟩, typeName⟩

/-- An attribute ends in a semicolon; without a modifier it can be read and written. -/
inductive AttributeDecl : List Token → Attribute → Prop where
  | mk {ts : List Token} {word semicolon : Token} {h : MemberHeading} {name : String}
      (hs : MemberStart ts h) (hn : word.kind = .identifier name)
      (he : semicolon.kind = .punctuation .semicolon) :
      AttributeDecl (ts ++ [word, semicolon])
        ⟨name, h.type, (h.modifier.map Modifier.visibility).getD .readWrite, h.annotations,
          word.span⟩

/-- The part of a method up to its opening parenthesis. A method has no modifier. -/
inductive MethodStart : List Token → Method → Prop where
  | mk {ts : List Token} {word opening : Token} {h : MemberHeading} {name : String}
      (hs : MemberStart ts h) (hm : h.modifier = none) (hn : word.kind = .identifier name)
      (ho : opening.kind = .punctuation .openParen) :
      MethodStart (ts ++ [word, opening]) ⟨h.type, name, [], h.annotations, word.span⟩

/-- A method. -/
inductive MethodDecl : List Token → Method → Prop where
  | mk {ts us : List Token} {closing semicolon : Token} {m : Method} {ps : List Parameter}
      (hs : MethodStart ts m) (hp : Parameters us ps)
      (hc : closing.kind = .punctuation .closeParen)
      (he : semicolon.kind = .punctuation .semicolon) :
      MethodDecl (ts ++ us ++ [closing, semicolon]) { m with parameters := ps }

/-- A member of either sort. -/
inductive MemberDecl : List Token → Member → Prop where
  | attribute {ts : List Token} {a : Attribute} (h : AttributeDecl ts a) :
      MemberDecl ts (.attribute a)
  | method {ts : List Token} {m : Method} (h : MethodDecl ts m) : MemberDecl ts (.method m)

/-- The part of a block up to its opening brace, for the keyword that introduces it. -/
inductive BlockStart (word : Keyword) : List Token → Heading → Prop where
  | mk {ts : List Token} {keyword label brace : Token} {annotations : List Annotation}
      {name : String} (ha : Many AnnotationDecl ts annotations)
      (hk : keyword.kind = .keyword word) (hn : label.kind = .identifier name)
      (hb : brace.kind = .punctuation .openBrace) :
      BlockStart word (ts ++ [keyword, label, brace]) ⟨annotations, name, label.span⟩

/-- An interface is a block of members. -/
inductive InterfaceDecl : List Token → Interface → Prop where
  | mk {ts us : List Token} {brace : Token} {h : Heading} {members : List Member}
      (hs : BlockStart .interface ts h) (hm : Many MemberDecl us members)
      (hb : brace.kind = .punctuation .closeBrace) :
      InterfaceDecl (ts ++ us ++ [brace]) (.ofMembers h.name members h.annotations h.span)

/-- A module is a block of interfaces. -/
inductive ModuleDecl : List Token → Module → Prop where
  | mk {ts us : List Token} {brace : Token} {h : Heading} {interfaces : List Interface}
      (hs : BlockStart .module ts h) (hi : Many InterfaceDecl us interfaces)
      (hb : brace.kind = .punctuation .closeBrace) :
      ModuleDecl (ts ++ us ++ [brace]) ⟨h.name, interfaces, h.annotations, h.span⟩

/-- **A program is a list of modules.** -/
def Program (ts : List Token) (program : List Module) : Prop := Many ModuleDecl ts program

/-- The lists of tokens that are programs, whatever their names. -/
def Sentence (ts : List Token) : Prop := ∃ program, Program ts program

/-- **The lists of tokens that begin a program.** -/
def Viable (ts : List Token) : Prop := ∃ later, Sentence (ts ++ later)

/-! ### Lists grow on the right -/

section Many
variable {α : Type} {piece : List Token → α → Prop}

theorem Many.one {ts : List Token} {a : α} (h : piece ts a) : Many piece ts [a] := by
  have hm : Many piece (ts ++ []) [a] := .cons h .nil
  rwa [List.append_nil] at hm

theorem Many.append {ts us : List Token} {as bs : List α} (h : Many piece ts as)
    (h' : Many piece us bs) : Many piece (ts ++ us) (as ++ bs) := by
  induction h with
  | nil => exact h'
  | cons first _ ih => rw [List.append_assoc]; exact .cons first ih

theorem Many.snoc {ts us : List Token} {as : List α} {a : α} (h : Many piece ts as)
    (last : piece us a) : Many piece (ts ++ us) (as ++ [a]) :=
  h.append (.one last)

/-- The last piece of a list stands at the end of its tokens. -/
theorem Many.exists_last {ts : List Token} {as : List α} {a : α} (h : Many piece ts (as ++ [a])) :
    ∃ us vs, ts = us ++ vs ∧ piece vs a := by
  induction as generalizing ts with
  | nil =>
    obtain _ | ⟨first, later⟩ := h
    cases later
    exact ⟨[], _, by simp, first⟩
  | cons b as ih =>
    obtain _ | ⟨first, later⟩ := h
    obtain ⟨us, vs, rfl, hv⟩ := ih later
    exact ⟨_ ++ us, vs, (List.append_assoc ..).symm, hv⟩

end Many

theorem ParameterList.snoc {ts us : List Token} {comma : Token} {ps : List Parameter}
    {p : Parameter} (h : ParameterList ts ps) (hc : comma.kind = .punctuation .comma)
    (last : ParameterDecl us p) : ParameterList (ts ++ comma :: us) (ps ++ [p]) := by
  induction h with
  | one hp => exact .cons hp hc (.one last)
  | cons hp hc' _ ih => rw [List.append_assoc]; exact .cons hp hc' ih

/-! ### Viability -/

/-- What begins a program begins with what begins one. -/
theorem Viable.of_append {ts us : List Token} (h : Viable (ts ++ us)) : Viable ts := by
  obtain ⟨later, hs⟩ := h
  exact ⟨us ++ later, by rwa [← List.append_assoc]⟩

end Grammar

end Idl
