import Idl.Proofs.Model.Parsed

/-! # Looking declarations up

A lookup by name gives the first declaration of that name. In a program that was read the names of
each scope are apart, so there is no second one, and the lookup gives a declaration exactly if the
declaration is there and has the name (`find?_named_eq_some_iff`).

An interface keeps its members in two lists and beside them the turns that the two take. Whichever
way it was built, there is one turn for each member of either list, so that no turn is passed over
and no member is left over (`Interface.Built.perm_members`).

* `Interface.Built.count_order`: the turns fit the two lists.
* `parsed_identified`: the lookups in a program that was read. -/

namespace Idl

theorem find?_named_eq_some_iff {α : Type} {nameOf : α → String} {declared : List α}
    (h : (declared.map nameOf).Nodup) {name : String} {a : α} :
    declared.find? (fun b => nameOf b = name) = some a ↔ a ∈ declared ∧ nameOf a = name := by
  constructor
  · intro hfind
    have hname := List.find?_some hfind
    exact ⟨List.mem_of_find?_eq_some hfind, of_decide_eq_true hname⟩
  · rintro ⟨ha, rfl⟩
    have hsome : (declared.find? fun b => nameOf b = nameOf a).isSome = true :=
      List.find?_isSome.mpr ⟨a, ha, decide_eq_true rfl⟩
    obtain ⟨b, hb⟩ := Option.isSome_iff_exists.mp hsome
    have hmem := List.mem_of_find?_eq_some hb
    have hname := List.find?_some hb
    rw [hb, List.inj_on_of_nodup_map h hmem ha (of_decide_eq_true hname)]

/-! ### The two lists of an interface -/

namespace Member

theorem count_kinds (members : List Member) :
    (members.map kind).count .attribute = (members.filterMap attribute?).length ∧
      (members.map kind).count .method = (members.filterMap method?).length := by
  induction members with
  | nil => exact ⟨rfl, rfl⟩
  | cons m members ih =>
    obtain ⟨hattributes, hmethods⟩ := ih
    rcases m with a | m
    · exact ⟨by simpa [kind, attribute?] using hattributes, hmethods⟩
    · exact ⟨hattributes, by simpa [kind, method?] using hmethods⟩

theorem perm_groups (members : List Member) :
    members.Perm ((members.filterMap attribute?).map .attribute ++
      (members.filterMap method?).map .method) := by
  induction members with
  | nil => exact .refl _
  | cons m members ih =>
    rcases m with a | m
    · exact ih.cons _
    · exact (ih.cons _).trans List.perm_middle.symm

end Member

namespace Interface

variable {i : Interface}

theorem Built.count_order (h : i.Built) :
    i.order.count .attribute = i.attributes.length ∧
      i.order.count .method = i.methods.length := by
  rw [h.eq_ofMembers]
  exact Member.count_kinds i.members

/-- **Replaying the turns gives every member once**, and the attributes and the methods each in the
order of their list. -/
theorem Built.perm_members (h : i.Built) :
    i.members.Perm (i.attributes.map .attribute ++ i.methods.map .method) ∧
      i.members.filterMap Member.attribute? = i.attributes ∧
      i.members.filterMap Member.method? = i.methods := by
  have he := h.eq_ofMembers
  have hattributes : i.attributes = i.members.filterMap Member.attribute? :=
    congrArg Interface.attributes he
  have hmethods : i.methods = i.members.filterMap Member.method? := congrArg Interface.methods he
  refine ⟨?_, hattributes.symm, hmethods.symm⟩
  rw [hattributes, hmethods]
  exact Member.perm_groups i.members

end Interface

/-- **In a program that was read, names identify declarations.** All names are words that are no
keywords and all numbers are numerals. No two modules have one name, no two interfaces of a module
and no two attributes of an interface, so looking one up by its name gives it and nothing else. An
interface has one turn for each of its attributes and methods, and its members in order are these,
each one once. -/
theorem parsed_identified {source : String} {program : List Module}
    (h : parseText source = .ok program) :
    (∀ m ∈ program, m.WellFormed) ∧ (program.map Module.name).Nodup ∧
    ∀ m ∈ program, (m.interfaces.map Interface.name).Nodup ∧
      (∀ name i, m.interface? name = some i ↔ i ∈ m.interfaces ∧ i.name = name) ∧
      ∀ i ∈ m.interfaces, (i.attributes.map Attribute.name).Nodup ∧
        (∀ name a, i.attribute? name = some a ↔ a ∈ i.attributes ∧ a.name = name) ∧
        i.order.count .attribute = i.attributes.length ∧
        i.order.count .method = i.methods.length ∧
        i.members.Perm (i.attributes.map .attribute ++ i.methods.map .method) ∧
        i.members.filterMap Member.attribute? = i.attributes ∧
        i.members.filterMap Member.method? = i.methods := by
  obtain ⟨hmodules, hnames, hinner⟩ := wellFormed_of_parseText h
  refine ⟨hmodules, hnames, fun m hm => ?_⟩
  obtain ⟨hinterfaces, hdistinct⟩ := hinner m hm
  refine ⟨hinterfaces, fun name i => find?_named_eq_some_iff hinterfaces, fun i hi => ?_⟩
  have hattributes : (i.attributes.map Attribute.name).Nodup := hdistinct i hi
  have hbuilt := ((hmodules m hm).interfaces i hi).built
  obtain ⟨hcount, hcount'⟩ := hbuilt.count_order
  exact ⟨hattributes, fun name a => find?_named_eq_some_iff hattributes, hcount, hcount',
    hbuilt.perm_members⟩

/-- A method stands between two attributes: each attribute is found by its name, and the members
come in their order. -/
theorem parsed_identified_between :
    let source := "module M\x7binterface I\x7bt x;u f();v y;\x7d\x7d"
    let x : Attribute := ⟨"x", "t", .readWrite, [], ⟨23, 24, 1, 24⟩⟩
    let y : Attribute := ⟨"y", "v", .readWrite, [], ⟨33, 34, 1, 34⟩⟩
    let f : Method := ⟨"u", "f", [], [], ⟨27, 28, 1, 28⟩⟩
    let i : Interface :=
      ⟨"I", [x, y], [f], [.attribute, .method, .attribute], [], ⟨19, 20, 1, 20⟩⟩
    let m : Module := ⟨"M", [i], [], ⟨7, 8, 1, 8⟩⟩
    parseText source = .ok [m] ∧ m.interface? "I" = some i ∧ i.attribute? "x" = some x ∧
      i.attribute? "y" = some y ∧ i.members = [.attribute x, .method f, .attribute y] ∧
      i.members.Perm [.attribute x, .attribute y, .method f] := by
  intro source x y f i m
  have hparse : parseText source = .ok [m] := by decide +kernel
  obtain ⟨-, -, hmodules⟩ := parsed_identified hparse
  obtain ⟨-, hinterface, hinterfaces⟩ := hmodules m List.mem_cons_self
  obtain ⟨-, hattribute, -, -, hperm, -⟩ := hinterfaces i List.mem_cons_self
  refine ⟨hparse, (hinterface "I" i).mpr ⟨List.mem_cons_self, rfl⟩,
    (hattribute "x" x).mpr ⟨List.mem_cons_self, rfl⟩, (hattribute "y" y).mpr ⟨?_, rfl⟩, rfl, hperm⟩
  exact List.mem_cons_of_mem x List.mem_cons_self

end Idl
