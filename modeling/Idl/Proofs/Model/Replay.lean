import Idl.Proofs.Model.Lookup

/-! # Members in turn

An interface keeps its attributes and its methods apart, and beside them the turns that the two
lists take. The replay draws from a list at each of its turns and passes over a turn whose list is
used up, so members could be lost at either end. Nothing is lost exactly if each list has as many
turns as members (`Interface.Fits`): then every turn draws a member, and behind the last turn both
lists are used up (`Interface.Fits.replay`). These are the interfaces that were built from members
or from the two groups (`Interface.built_iff_fits`).

* `Interface.members_replayed`: members come back in the order of their declaration. -/

namespace Idl

/-! ### Members of one sort -/

namespace Member

theorem map_attribute_filterMap (members : List Member) :
    (members.filterMap attribute?).map .attribute =
      members.filter fun m => m.kind = .attribute := by
  induction members with
  | nil => rfl
  | cons m members ih =>
    rcases m with a | m
    · exact congrArg (Member.attribute a :: ·) ih
    · exact ih

theorem map_method_filterMap (members : List Member) :
    (members.filterMap method?).map .method = members.filter fun m => m.kind = .method := by
  induction members with
  | nil => rfl
  | cons m members ih =>
    rcases m with a | m
    · exact ih
    · exact congrArg (Member.method m :: ·) ih

theorem map_filter_methods (members : List Member) (called : String) :
    ((members.filterMap method?).filter fun m => m.name = called).map .method =
      members.filter fun m => m.kind = .method ∧ m.name = called := by
  have hname : ((members.filterMap method?).filter fun m => m.name = called).map Member.method =
      ((members.filterMap method?).map Member.method).filter fun m => m.name = called := by
    rw [List.filter_map]
    rfl
  rw [hname, map_method_filterMap, List.filter_filter]
  simp [Bool.and_comm]

end Member

namespace Interface

/-! ### Turns that fit -/

/-- **Each list has as many turns as members.** -/
@[mk_iff] structure Fits (order : List MemberKind) (attributes : List Attribute)
    (methods : List Method) : Prop where
  attributes : order.count .attribute = attributes.length
  methods : order.count .method = methods.length

section Turn
variable {order : List MemberKind} {attributes : List Attribute} {methods : List Method}

/-- A turn of the attributes that fit draws one of them, and the later turns fit the others. -/
theorem Fits.attribute_turn (h : Fits (.attribute :: order) attributes methods) :
    ∃ a later, attributes = a :: later ∧ Fits order later methods := by
  have hcount := h.attributes
  rw [List.count_cons_self] at hcount
  obtain ⟨a, later, rfl⟩ : ∃ a later, attributes = a :: later :=
    List.exists_cons_of_length_pos (by omega)
  rw [List.length_cons] at hcount
  exact ⟨a, later, rfl, by omega, h.methods⟩

theorem Fits.method_turn (h : Fits (.method :: order) attributes methods) :
    ∃ m later, methods = m :: later ∧ Fits order attributes later := by
  have hcount := h.methods
  rw [List.count_cons_self] at hcount
  obtain ⟨m, later, rfl⟩ : ∃ m later, methods = m :: later :=
    List.exists_cons_of_length_pos (by omega)
  rw [List.length_cons] at hcount
  exact ⟨m, later, rfl, h.attributes, by omega⟩

/-- **Turns that fit draw every member of both lists**, each list in its order. -/
theorem Fits.replay (h : Fits order attributes methods) :
    (replay order attributes methods).filterMap Member.attribute? = attributes ∧
      (replay order attributes methods).filterMap Member.method? = methods ∧
      (replay order attributes methods).map Member.kind = order := by
  induction order generalizing attributes methods with
  | nil =>
    obtain rfl : attributes = [] := List.eq_nil_of_length_eq_zero h.attributes.symm
    obtain rfl : methods = [] := List.eq_nil_of_length_eq_zero h.methods.symm
    exact ⟨rfl, rfl, rfl⟩
  | cons kind order ih =>
    rcases kind with _ | _
    · obtain ⟨a, later, rfl, hlater⟩ := h.attribute_turn
      obtain ⟨hattributes, hmethods, horder⟩ := ih hlater
      exact ⟨congrArg (a :: ·) hattributes, hmethods, congrArg (MemberKind.attribute :: ·) horder⟩
    · obtain ⟨m, later, rfl, hlater⟩ := h.method_turn
      obtain ⟨hattributes, hmethods, horder⟩ := ih hlater
      rw [Interface.replay]
      exact ⟨hattributes, congrArg (m :: ·) hmethods, congrArg (MemberKind.method :: ·) horder⟩

end Turn

theorem Fits.eq_ofMembers {i : Interface} (h : Fits i.order i.attributes i.methods) :
    ofMembers i.name i.members i.annotations i.span = i := by
  obtain ⟨hattributes, hmethods, horder⟩ := h.replay
  unfold ofMembers members
  rw [hattributes, hmethods, horder]

/-- **The interfaces that were built are those whose turns fit.** -/
theorem built_iff_fits {i : Interface} : i.Built ↔ Fits i.order i.attributes i.methods := by
  constructor
  · intro h
    obtain ⟨hattributes, hmethods⟩ := h.count_order
    exact ⟨hattributes, hmethods⟩
  · intro h
    rw [← h.eq_ofMembers]
    exact .members ..

/-- **Members come back in the order of their declaration.** An interface built from members has
these members, of which its attributes and its methods are those of each sort, and the methods of a
name are those of that name. One built from two groups has the attributes first. The interfaces that
were built in one of these two ways are those that their members make again, and those whose turns
fit their lists. -/
theorem members_replayed (name : String) (annotations : List Annotation) (span : Span) :
    (∀ members : List Member,
      let i := ofMembers name members annotations span
      i.members = members ∧
        i.attributes.map Member.attribute = (members.filter fun m => m.kind = .attribute) ∧
        i.methods.map Member.method = (members.filter fun m => m.kind = .method) ∧
        ∀ called, (i.methodsNamed called).map Member.method =
          members.filter fun m => m.kind = .method ∧ m.name = called) ∧
    (∀ attributes methods, (ofGroups name attributes methods annotations span).members =
      attributes.map Member.attribute ++ methods.map Member.method) ∧
    ∀ i : Interface,
      (i.Built ↔ ofMembers i.name i.members i.annotations i.span = i) ∧
      (i.Built ↔ i.order.count .attribute = i.attributes.length ∧
        i.order.count .method = i.methods.length) := by
  refine ⟨fun members => ⟨?_, ?_, ?_, fun called => ?_⟩, ?_, fun i => ⟨⟨?_, ?_⟩, ?_⟩⟩
  · exact members_ofMembers name members annotations span
  · exact Member.map_attribute_filterMap members
  · exact Member.map_method_filterMap members
  · exact Member.map_filter_methods members called
  · intro attributes methods
    exact members_ofGroups name attributes methods annotations span
  · intro h
    exact h.eq_ofMembers.symm
  · intro h
    rw [← h]
    exact .members ..
  · rw [built_iff_fits, fits_iff]

end Interface

end Idl
