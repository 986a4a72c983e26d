import Idl.Proofs.Layout.Canonical
import Idl.Proofs.Layout.Entries
import Idl.Proofs.Model.Replay

/-! # What an outline tells

The outline of a program has a row for each declaration. The program can be told from it, apart from
where its annotations and parameters stand and how many bytes are before its names
(`Module.outlined`): the rows tell what they show, and the first tokens of a row say what sort of
declaration it is. So it is known where a module or an interface begins, and the rows can be put
together again, because an interface is its members in order.

* `Outline.ofProgram_eq_join`: the outline of a program is made of its rows.
* `Outline.eq_of_entries`: the rows of a program tell the program.
* `Outline.ofProgram_eq_iff`, `outline_unambiguous`: outlines are the same exactly if all that they
  show is. -/

namespace Idl

/-! ### What is shown -/

/-- An attribute as an outline shows it. -/
def Attribute.outlined (a : Attribute) : Attribute :=
  { a with
    annotations := a.annotations.map (·.mapSpan fun _ => .nowhere)
    span := a.span.place }

/-- A method as an outline shows it. -/
def Method.outlined (m : Method) : Method :=
  { m with
    parameters := m.parameters.map (·.mapSpan fun _ => .nowhere)
    annotations := m.annotations.map (·.mapSpan fun _ => .nowhere)
    span := m.span.place }

/-- A member as an outline shows it. -/
def Member.outlined : Member → Member
  | .attribute a => .attribute a.outlined
  | .method m => .method m.outlined

/-- An interface as an outline shows it. -/
def Interface.outlined (i : Interface) : Interface :=
  { i with
    attributes := i.attributes.map Attribute.outlined
    methods := i.methods.map Method.outlined
    annotations := i.annotations.map (·.mapSpan fun _ => .nowhere)
    span := i.span.place }

/-- **A module as an outline shows it:** annotations and parameters stand nowhere, and of the other
spans only the line and the column are kept. -/
def Module.outlined (m : Module) : Module :=
  { m with
    interfaces := m.interfaces.map Interface.outlined
    annotations := m.annotations.map (·.mapSpan fun _ => .nowhere)
    span := m.span.place }

/-- Members take the same turns. -/
theorem Interface.members_outlined (i : Interface) :
    i.outlined.members = i.members.map .outlined :=
  replay_map (fun _ => rfl) (fun _ => rfl) i.order i.attributes i.methods

theorem Interface.Built.outlined {i : Interface} (h : i.Built) : i.outlined.Built := by
  obtain ⟨hattributes, hmethods⟩ := built_iff_fits.mp h
  refine built_iff_fits.mpr ⟨?_, ?_⟩
  · rw [← List.length_map (f := Attribute.outlined)] at hattributes
    exact hattributes
  · rw [← List.length_map (f := Method.outlined)] at hmethods
    exact hmethods

namespace Outline

/-! ### The rows of a program -/

/-- The row of a member. -/
def memberEntry : Member → Entry
  | .attribute a => ⟨.attribute a.visibility a.type a.name, a.annotations, a.span⟩
  | .method m => ⟨.method m.returnType m.name m.parameters, m.annotations, m.span⟩

/-- The rows of an interface. -/
def interfaceEntries (i : Interface) : List Entry :=
  ⟨.interface i.name, i.annotations, i.span⟩ :: i.members.map memberEntry

/-- The rows of a module. -/
def moduleEntries (m : Module) : List Entry :=
  ⟨.module m.name, m.annotations, m.span⟩ :: m.interfaces.flatMap interfaceEntries

/-- **The rows of a program.** -/
def entries (program : List Module) : List Entry := program.flatMap moduleEntries

theorem join_flatMap {α : Type} (rows : α → List Entry) (as : List α) :
    String.join ((as.flatMap rows).map Entry.text) =
      String.join (as.map fun a => String.join ((rows a).map Entry.text)) := by
  refine String.toList_inj.mp ?_
  simp only [String.toList_join, List.flatMap_map, List.flatMap_assoc]

theorem ofInterface_eq_join (i : Interface) :
    ofInterface i = String.join ((interfaceEntries i).map Entry.text) := by
  have hmember : ∀ m : Member, ofMember m = (memberEntry m).text := by
    rintro (a | m)
    · rfl
    · rfl
  have hmembers : i.members.map ofMember = (i.members.map memberEntry).map Entry.text := by
    rw [List.map_map]
    exact List.map_congr_left fun m _ => hmember m
  rw [ofInterface, hmembers, interfaceEntries, List.map_cons, String.join_cons]
  rfl

/-- **The outline of a program is made of its rows.** -/
theorem ofProgram_eq_join (program : List Module) :
    ofProgram program = String.join ((entries program).map Entry.text) := by
  have hmodule : ∀ m : Module, ofModule m = String.join ((moduleEntries m).map Entry.text) := by
    intro m
    have hinterfaces : m.interfaces.map ofInterface =
        m.interfaces.map fun i => String.join ((interfaceEntries i).map Entry.text) :=
      List.map_congr_left fun i _ => ofInterface_eq_join i
    rw [ofModule, hinterfaces, ← join_flatMap, moduleEntries, List.map_cons, String.join_cons]
    rfl
  rw [ofProgram, entries, join_flatMap]
  exact congrArg String.join (List.map_congr_left fun m _ => hmodule m)

/-- A row does not show more. -/
theorem Entry.text_outlined (e : Entry) : e.outlined.text = e.text := by
  have hannotations : ∀ as : List Annotation,
      (as.map (·.mapSpan fun _ => .nowhere)).map (fun a => " " ++ a.text) =
        as.map fun a => " " ++ a.text := by
    intro as
    rw [List.map_map]
    rfl
  have hhead : e.head.outlined.depth = e.head.depth ∧ e.head.outlined.text = e.head.text := by
    rcases e.head with name | name | ⟨visibility, type, name⟩ | ⟨returnType, name, parameters⟩
    · exact ⟨rfl, rfl⟩
    · exact ⟨rfl, rfl⟩
    · exact ⟨rfl, rfl⟩
    · have hmethod := Method.text_mapSpan (fun _ => .nowhere)
        ⟨returnType, name, parameters, [], .nowhere⟩
      exact ⟨rfl, congrArg ("method " ++ ·) hmethod⟩
  unfold text line outlined
  dsimp only
  rw [hhead.1, hhead.2, hannotations]
  rfl

/-- The rows of what is shown of a program are what its rows show. -/
theorem entries_outlined (program : List Module) :
    entries (program.map Module.outlined) = (entries program).map Entry.outlined := by
  have hmember : ∀ m : Member, memberEntry m.outlined = (memberEntry m).outlined := by
    rintro (a | m)
    · rfl
    · rfl
  have hinterface : ∀ i : Interface,
      interfaceEntries i.outlined = (interfaceEntries i).map Entry.outlined := by
    intro i
    simp only [interfaceEntries, Interface.members_outlined, List.map_map, List.map_cons,
      Function.comp_def, hmember]
    rfl
  have hmodule : ∀ m : Module, moduleEntries m.outlined = (moduleEntries m).map Entry.outlined := by
    intro m
    simp only [moduleEntries, Module.outlined, List.flatMap_map, List.map_cons, List.map_flatMap,
      hinterface]
    rfl
  simp only [entries, List.flatMap_map, List.map_flatMap, hmodule]

/-! ### Putting the rows together -/

/-- Whether a row is that of a module. -/
def Entry.IsModule (e : Entry) : Prop := ∃ name, e.head = .module name

/-- Whether a row is that of an interface. -/
def Entry.IsInterface (e : Entry) : Prop := ∃ name, e.head = .interface name

theorem memberEntry_head (m : Member) :
    (∀ name, (memberEntry m).head ≠ .module name) ∧
      ∀ name, (memberEntry m).head ≠ .interface name := by
  rcases m with a | m
  · exact ⟨fun _ => by simp [memberEntry], fun _ => by simp [memberEntry]⟩
  · exact ⟨fun _ => by simp [memberEntry], fun _ => by simp [memberEntry]⟩

theorem memberEntry_injective : Function.Injective memberEntry := by
  rintro (⟨name, type, visibility, annotations, span⟩ | ⟨type, name, parameters, annotations, span⟩)
    (⟨name', type', visibility', annotations', span'⟩ |
      ⟨type', name', parameters', annotations', span'⟩) h
  · cases h
    rfl
  · cases h
  · cases h
  · cases h
    rfl

theorem marked_interfaceEntries (i : Interface) :
    Marked Entry.IsInterface (interfaceEntries i) := by
  refine ⟨_, _, rfl, ⟨i.name, rfl⟩, fun e he => ?_⟩
  obtain ⟨m, -, rfl⟩ := List.mem_map.mp he
  rintro ⟨name, hname⟩
  exact (memberEntry_head m).2 name hname

theorem marked_moduleEntries (m : Module) : Marked Entry.IsModule (moduleEntries m) := by
  refine ⟨_, _, rfl, ⟨m.name, rfl⟩, fun e he => ?_⟩
  obtain ⟨i, -, he⟩ := List.mem_flatMap.mp he
  rintro ⟨name, hname⟩
  rcases List.mem_cons.mp he with rfl | he
  · cases hname
  · obtain ⟨member, -, rfl⟩ := List.mem_map.mp he
    exact (memberEntry_head member).1 name hname

/-- The rows of an interface tell it, if it was built from its members. -/
theorem eq_of_interfaceEntries {i i' : Interface} (h : i.Built) (h' : i'.Built)
    (he : interfaceEntries i = interfaceEntries i') : i = i' := by
  obtain ⟨hhead, hmembers⟩ := List.cons.inj he
  injection hhead with hname hannotations hspan
  injection hname with hname
  have hmembers := memberEntry_injective.list_map hmembers
  rw [h.eq_ofMembers, h'.eq_ofMembers, hname, hmembers, hannotations, hspan]

theorem eq_of_moduleEntries {m m' : Module} (h : ∀ i ∈ m.interfaces, i.Built)
    (h' : ∀ i ∈ m'.interfaces, i.Built) (he : moduleEntries m = moduleEntries m') : m = m' := by
  obtain ⟨hhead, hrows⟩ := List.cons.inj he
  injection hhead with hname hannotations hspan
  injection hname with hname
  have hinterfaces := map_eq_of_flatMap_eq (g := id) Entry.IsInterface
    (fun i _ => marked_interfaceEntries i) (fun i _ => marked_interfaceEntries i)
    (fun i hi i' hi' => eq_of_interfaceEntries (h i hi) (h' i' hi')) hrows
  rw [List.map_id, List.map_id] at hinterfaces
  obtain ⟨name, interfaces, annotations, span⟩ := m
  obtain ⟨name', interfaces', annotations', span'⟩ := m'
  simp only at hname hannotations hspan hinterfaces
  subst hname hannotations hspan hinterfaces
  rfl

/-- **The rows of a program can be put together again.** -/
theorem eq_of_entries {program program' : List Module}
    (h : ∀ m ∈ program, ∀ i ∈ m.interfaces, i.Built)
    (h' : ∀ m ∈ program', ∀ i ∈ m.interfaces, i.Built)
    (he : entries program = entries program') : program = program' := by
  have hmodules := map_eq_of_flatMap_eq (g := id) Entry.IsModule
    (fun m _ => marked_moduleEntries m) (fun m _ => marked_moduleEntries m)
    (fun m hm m' hm' => eq_of_moduleEntries (h m hm) (h' m' hm')) he
  rwa [List.map_id, List.map_id] at hmodules

/-! ### Outlines -/

theorem wellFormed_of_mem_entries {program : List Module} (h : ∀ m ∈ program, m.WellFormed) :
    ∀ e ∈ entries program, e.WellFormed := by
  intro e he
  obtain ⟨m, hm, he⟩ := List.mem_flatMap.mp he
  rcases List.mem_cons.mp he with rfl | he
  · exact ⟨(h m hm).name, (h m hm).annotations⟩
  obtain ⟨i, hi, he⟩ := List.mem_flatMap.mp he
  have hgood := (h m hm).interfaces i hi
  rcases List.mem_cons.mp he with rfl | he
  · exact ⟨hgood.name, hgood.annotations⟩
  obtain ⟨member, hmember, rfl⟩ := List.mem_map.mp he
  have hmember := hgood.member hmember
  rcases member with a | method
  · exact ⟨⟨hmember.type, hmember.name⟩, hmember.annotations⟩
  · exact ⟨⟨hmember.returnType, hmember.name, hmember.parameters, by simp⟩, hmember.annotations⟩

theorem built_of_mem_outlined {program : List Module} (h : ∀ m ∈ program, m.WellFormed) :
    ∀ m ∈ program.map Module.outlined, ∀ i ∈ m.interfaces, i.Built := by
  intro shown hshown j hj
  obtain ⟨m, hm, rfl⟩ := List.mem_map.mp hshown
  obtain ⟨i, hi, rfl⟩ := List.mem_map.mp hj
  exact ((h m hm).interfaces i hi).built.outlined

/-- **Outlines are the same exactly if all that they show is**, for programs that can be written. -/
theorem ofProgram_eq_iff {program program' : List Module} (h : ∀ m ∈ program, m.WellFormed)
    (h' : ∀ m ∈ program', m.WellFormed) :
    ofProgram program = ofProgram program' ↔
      program.map Module.outlined = program'.map Module.outlined := by
  rw [ofProgram_eq_join, ofProgram_eq_join]
  constructor
  · intro hjoin
    have hrows := map_outlined_eq_of_join (wellFormed_of_mem_entries h)
      (wellFormed_of_mem_entries h') hjoin
    rw [← entries_outlined, ← entries_outlined] at hrows
    exact eq_of_entries (built_of_mem_outlined h) (built_of_mem_outlined h') hrows
  · intro hshown
    have htexts : ∀ es : List Entry,
        es.map Entry.text = (es.map Entry.outlined).map Entry.text := by
      intro es
      rw [List.map_map]
      exact List.map_congr_left fun e _ => e.text_outlined.symm
    rw [htexts, htexts (entries program'), ← entries_outlined, ← entries_outlined, hshown]

end Outline

/-- **The outline of a program that was read is unambiguous.** Two programs have one outline exactly
if they are the same apart from where annotations and parameters stand and how many bytes are before
and in the other names: names, types, modifiers, parameters, annotations with the sort and the value
of their literals, the nesting, the order of members and each line and column can be told. -/
theorem outline_unambiguous {source source' : String} {program program' : List Module}
    (h : parseText source = .ok program) (h' : parseText source' = .ok program') :
    Outline.ofProgram program = Outline.ofProgram program' ↔
      program.map Module.outlined = program'.map Module.outlined := by
  have hgood := (wellFormed_of_parseText h).modules
  have hgood' := (wellFormed_of_parseText h').modules
  exact Outline.ofProgram_eq_iff hgood hgood'

/-- A blank behind an annotation or before its literal: the annotation ends at another place, which
the outline does not show. A quoted literal has another outline than a word. -/
theorem outline_unambiguous_blank :
    ∃ program program' other, parseText "@a(x)   module M\x7b\x7d" = .ok program ∧
      parseText "@a( x)  module M\x7b\x7d" = .ok program' ∧
      parseText "@a(\"x\") module M\x7b\x7d" = .ok other ∧ program ≠ program' ∧
      Outline.ofProgram program = Outline.ofProgram program' ∧
      Outline.ofProgram program ≠ Outline.ofProgram other := by
  have hparse : parseText "@a(x)   module M\x7b\x7d" =
      .ok [⟨"M", [], [⟨"a", some (.word "x"), ⟨0, 5, 1, 1⟩⟩], ⟨15, 16, 1, 16⟩⟩] := by
    decide +kernel
  have hparse' : parseText "@a( x)  module M\x7b\x7d" =
      .ok [⟨"M", [], [⟨"a", some (.word "x"), ⟨0, 6, 1, 1⟩⟩], ⟨15, 16, 1, 16⟩⟩] := by
    decide +kernel
  have hother : parseText "@a(\"x\") module M\x7b\x7d" =
      .ok [⟨"M", [], [⟨"a", some (.string "x"), ⟨0, 7, 1, 1⟩⟩], ⟨15, 16, 1, 16⟩⟩] := by
    decide +kernel
  refine ⟨_, _, _, hparse, hparse', hother, by decide, ?_, ?_⟩
  · exact (outline_unambiguous hparse hparse').mpr rfl
  · exact fun he => absurd ((outline_unambiguous hparse hother).mp he) (by decide)

end Idl
