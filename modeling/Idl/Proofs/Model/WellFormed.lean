import Idl.Proofs.Draft.Names
import Idl.Proofs.Lexeme.Class
import Mathlib.Tactic.MkIffOfInductiveProp

/-! # Well-formed programs

A program can be built from parts that no text spells: a name with a space in it, a number without
digits, a list of turns that does not fit its members. A program is *well-formed* if its names are
words that are no keywords, its numbers are numerals, its interfaces come from one of the two ways
to build one, and the names of each scope are apart. Quoted texts are free.

* `Interface.Built.eq_ofMembers`: whichever way an interface was built, its members in order are
  all there is to it. -/

namespace Idl

/-- A word that is no keyword. -/
def IsName (s : String) : Prop := Lexeme.Word s.toList ∧ Keyword.ofText? s = none

instance (s : String) : Decidable (IsName s) :=
  inferInstanceAs (Decidable (Lexeme.Word s.toList ∧ Keyword.ofText? s = none))

theorem IsName.wordKind_eq {s : String} (h : IsName s) :
    Lexeme.wordKind s.toList = .identifier s := by
  simp [Lexeme.wordKind, h.2]

/-- The literals that can be written: any text, numerals, and names. -/
def AnnotationValue.WellFormed : AnnotationValue → Prop
  | .string _ => True
  | .number spelling => Lexeme.Number spelling.toList
  | .word name => IsName name

/-- The annotations that can be written. -/
@[mk_iff] structure Annotation.WellFormed (a : Annotation) : Prop where
  name : IsName a.name
  value : ∀ v ∈ a.value, v.WellFormed

/-- The attributes that can be written. -/
@[mk_iff] structure Attribute.WellFormed (a : Attribute) : Prop where
  name : IsName a.name
  type : IsName a.type
  annotations : ∀ x ∈ a.annotations, x.WellFormed

/-- The parameters that can be written. -/
@[mk_iff] structure Parameter.WellFormed (p : Parameter) : Prop where
  type : IsName p.type
  name : IsName p.name

/-- The methods that can be written. -/
@[mk_iff] structure Method.WellFormed (m : Method) : Prop where
  returnType : IsName m.returnType
  name : IsName m.name
  parameters : ∀ p ∈ m.parameters, p.WellFormed
  annotations : ∀ a ∈ m.annotations, a.WellFormed

/-- The members that can be written. -/
def Member.WellFormed : Member → Prop
  | .attribute a => a.WellFormed
  | .method m => m.WellFormed

/-- The two ways to build an interface: from its members in order, or from attributes and
methods. -/
inductive Interface.Built : Interface → Prop where
  | members (name : String) (members : List Member) (annotations : List Annotation) (span : Span) :
      Built (.ofMembers name members annotations span)
  | groups (name : String) (attributes : List Attribute) (methods : List Method)
      (annotations : List Annotation) (span : Span) :
      Built (.ofGroups name attributes methods annotations span)

/-- The interfaces that can be written. -/
@[mk_iff] structure Interface.WellFormed (i : Interface) : Prop where
  built : i.Built
  name : IsName i.name
  attributes : ∀ a ∈ i.attributes, a.WellFormed
  methods : ∀ m ∈ i.methods, m.WellFormed
  annotations : ∀ a ∈ i.annotations, a.WellFormed

/-- The modules that can be written. -/
@[mk_iff] structure Module.WellFormed (m : Module) : Prop where
  name : IsName m.name
  interfaces : ∀ i ∈ m.interfaces, i.WellFormed
  annotations : ∀ a ∈ m.annotations, a.WellFormed

/-- **The programs that can be written:** each module can, and the names of each scope are apart. -/
@[mk_iff] structure WellFormed (program : List Module) : Prop where
  modules : ∀ m ∈ program, m.WellFormed
  distinct : DistinctNames program

namespace Interface

theorem ofGroups_eq_ofMembers (name : String) (attributes : List Attribute) (methods : List Method)
    (annotations : List Annotation) (span : Span) :
    ofGroups name attributes methods annotations span =
      ofMembers name (attributes.map .attribute ++ methods.map .method) annotations span := by
  simp [ofGroups, ofMembers, List.filterMap_map, Function.comp_def, Member.attribute?,
    Member.method?, Member.kind, List.map_const']

/-- **An interface is its members in order**, with a name and annotations. -/
theorem Built.eq_ofMembers {i : Interface} (h : i.Built) :
    i = ofMembers i.name i.members i.annotations i.span := by
  cases h with
  | members name members annotations span =>
    rw [members_ofMembers]
    rfl
  | groups name attributes methods annotations span =>
    rw [members_ofGroups]
    exact ofGroups_eq_ofMembers ..

/-- Members that are changed one by one take the same turns. -/
theorem replay_map {f : Attribute → Attribute} {g : Method → Method} {change : Member → Member}
    (hf : ∀ a, change (.attribute a) = .attribute (f a))
    (hg : ∀ m, change (.method m) = .method (g m)) (order : List MemberKind)
    (attributes : List Attribute) (methods : List Method) :
    replay order (attributes.map f) (methods.map g) =
      (replay order attributes methods).map change := by
  fun_induction replay order attributes methods with
  | case1 => rfl
  | case2 order a attributes methods ih =>
    rw [List.map_cons, List.map_cons, hf, ← ih]
    rfl
  | case3 order methods ih => exact ih
  | case4 order attributes m methods ih => rw [List.map_cons, List.map_cons, hg, ← ih, replay]
  | case5 order attributes ih => rw [← ih, List.map_nil, replay]

/-- Every member of a well-formed interface is one of its attributes or methods. -/
theorem WellFormed.member {i : Interface} (h : i.WellFormed) {m : Member} (hm : m ∈ i.members) :
    m.WellFormed := by
  have he := h.built.eq_ofMembers
  obtain a | b := m
  · refine h.attributes a ?_
    rw [he]
    exact List.mem_filterMap.mpr ⟨_, hm, rfl⟩
  · refine h.methods b ?_
    rw [he]
    exact List.mem_filterMap.mpr ⟨_, hm, rfl⟩

end Interface

/-! ### Well-formedness can be checked -/

instance : (v : AnnotationValue) → Decidable v.WellFormed
  | .string _ => isTrue trivial
  | .number spelling => inferInstanceAs (Decidable (Lexeme.Number spelling.toList))
  | .word name => inferInstanceAs (Decidable (IsName name))

instance (a : Annotation) : Decidable a.WellFormed := decidable_of_iff' _ a.wellFormed_iff

instance (a : Attribute) : Decidable a.WellFormed := decidable_of_iff' _ a.wellFormed_iff

instance (p : Parameter) : Decidable p.WellFormed := decidable_of_iff' _ p.wellFormed_iff

instance (m : Method) : Decidable m.WellFormed := decidable_of_iff' _ m.wellFormed_iff

instance (i : Interface) : Decidable i.Built :=
  decidable_of_iff (i = .ofMembers i.name i.members i.annotations i.span)
    ⟨fun h => h ▸ .members .., Interface.Built.eq_ofMembers⟩

instance (i : Interface) : Decidable i.WellFormed := decidable_of_iff' _ i.wellFormed_iff

instance (m : Module) : Decidable m.WellFormed := decidable_of_iff' _ m.wellFormed_iff

instance {α : Type} (name : α → String) (inner : α → Prop) [DecidablePred inner] (as : List α) :
    Decidable (DistinctBy name inner as) :=
  inferInstanceAs (Decidable ((as.map name).Nodup ∧ ∀ a ∈ as, inner a))

instance (i : Interface) : Decidable i.Distinct :=
  inferInstanceAs (Decidable (i.attributes.map Attribute.name).Nodup)

instance (m : Module) : Decidable m.Distinct :=
  inferInstanceAs (Decidable (DistinctBy Interface.name Interface.Distinct m.interfaces))

instance (program : List Module) : Decidable (DistinctNames program) :=
  inferInstanceAs (Decidable (DistinctBy Module.name Module.Distinct program))

instance (program : List Module) : Decidable (WellFormed program) :=
  decidable_of_iff' _ (wellFormed_iff program)

end Idl
