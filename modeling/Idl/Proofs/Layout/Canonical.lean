import Idl.Proofs.Layout.RoundTrip
import Idl.Proofs.Model.Parsed

/-! # Canonical texts

The text that a layout gives to a source is a canonical form of it: two sources have the same text
exactly if they are read as the same program, up to spans. In one direction, a layout does not look
at spans (`Layout.format_eraseSpans`). In the other, the program can be read off its text again,
because a program that was read is well-formed (`exists_parseText_format`). What is laid out again
keeps nothing of the layout it had before (`Layout.formatText_format`).

* `formatText_canonical`: texts are the same exactly if programs are, and the last layout counts. -/

namespace Idl

/-! ### A layout does not look at spans -/

section MapSpan
variable (f : Span → Span)

/-- Members take the same turns wherever they stand. -/
theorem Interface.members_mapSpan (i : Interface) :
    (i.mapSpan f).members = i.members.map (·.mapSpan f) :=
  replay_map (fun _ => rfl) (fun _ => rfl) i.order i.attributes i.methods

theorem Method.text_mapSpan (m : Method) : (m.mapSpan f).text = m.text := by
  unfold text mapSpan
  rw [List.map_map]
  rfl

namespace Layout

variable (l : Layout)

theorem annotationLines_mapSpan (depth : Nat) (annotations : List Annotation) :
    annotationLines depth (annotations.map (·.mapSpan f)) = annotationLines depth annotations := by
  unfold annotationLines
  rw [List.map_map]
  rfl

theorem memberAnnotations_mapSpan (m : Member) :
    memberAnnotations (m.mapSpan f) = (memberAnnotations m).map (·.mapSpan f) := by
  cases m <;> rfl

theorem memberText_mapSpan (m : Member) : l.memberText (m.mapSpan f) = l.memberText m := by
  obtain a | b := m
  · rfl
  · exact congrArg (· ++ ";") (b.text_mapSpan f)

theorem memberLines_mapSpan (depth : Nat) (m : Member) :
    l.memberLines depth (m.mapSpan f) = l.memberLines depth m := by
  unfold memberLines
  rw [memberAnnotations_mapSpan, annotationLines_mapSpan, memberText_mapSpan]

theorem interfaceLines_mapSpan (depth : Nat) (i : Interface) :
    l.interfaceLines depth (i.mapSpan f) = l.interfaceLines depth i := by
  have ha := annotationLines_mapSpan f depth i.annotations
  have hm : (i.mapSpan f).members.flatMap (l.memberLines (depth + 1)) =
      i.members.flatMap (l.memberLines (depth + 1)) := by
    simp only [Interface.members_mapSpan, List.flatMap_map, memberLines_mapSpan]
  unfold interfaceLines
  rw [hm]
  exact congrArg (· ++ _) ha

theorem moduleLines_mapSpan (depth : Nat) (m : Module) :
    l.moduleLines depth (m.mapSpan f) = l.moduleLines depth m := by
  have ha := annotationLines_mapSpan f depth m.annotations
  have hi : (m.mapSpan f).interfaces.map (l.interfaceLines (depth + 1)) =
      m.interfaces.map (l.interfaceLines (depth + 1)) := by
    simp only [Module.mapSpan, List.map_map, Function.comp_def, interfaceLines_mapSpan]
  unfold moduleLines
  rw [hi]
  exact congrArg (· ++ _) ha

/-- A program is laid out alike wherever it stands. -/
theorem format_mapSpan (program : List Module) :
    l.format (program.map (·.mapSpan f)) = l.format program := by
  simp only [format, lines, List.map_map, Function.comp_def, moduleLines_mapSpan]

/-- **A layout does not look at spans.** -/
theorem format_eraseSpans (program : List Module) :
    l.format (eraseSpans program) = l.format program :=
  l.format_mapSpan _ program

end Layout

end MapSpan

/-! ### Reading what was read and laid out -/

section Parsed
variable {source : String} {program : List Module} (h : parseText source = .ok program)
include h

/-- **A program that was read is read off its text again**, in every layout. -/
theorem exists_parseText_format (l : Layout) :
    ∃ again, parseText (l.format program) = .ok again ∧ eraseSpans again = eraseSpans program := by
  have hw := wellFormed_of_parseText h
  obtain ⟨scan, hscan, hkinds, -⟩ := l.ofText_format hw.modules
  obtain ⟨again, hparse, he⟩ := exists_parse_of_kinds l hw hkinds
  exact ⟨again, parseText_eq_ok_iff.mpr ⟨scan, hscan, hparse⟩, he⟩

namespace Layout

theorem formatText_of_parseText (l : Layout) : l.formatText source = .ok (l.format program) := by
  rw [formatText, h]
  rfl

/-- **The last layout counts.** -/
theorem formatText_format (l l' : Layout) :
    l'.formatText (l.format program) = .ok (l'.format program) := by
  obtain ⟨again, hagain, he⟩ := exists_parseText_format h l
  rw [formatText_of_parseText hagain, ← l'.format_eraseSpans again, he, l'.format_eraseSpans]

end Layout

end Parsed

/-- Programs that were read have the same text only if they are the same up to spans. -/
theorem eraseSpans_eq_of_format {source source' : String} {program program' : List Module}
    (h : parseText source = .ok program) (h' : parseText source' = .ok program') {l : Layout}
    (hf : l.format program = l.format program') : eraseSpans program = eraseSpans program' := by
  obtain ⟨again, hagain, he⟩ := exists_parseText_format h l
  obtain ⟨again', hagain', he'⟩ := exists_parseText_format h' l
  rw [hf, hagain'] at hagain
  cases hagain
  rw [← he, he']

/-- **The text of a layout is a canonical form.** Sources that are read have the same text exactly
if they are read as the same program up to spans; the text of a text is the one that the last layout
gives to the source, so laying out twice is laying out once, and the standard text of a source is
its own. -/
theorem formatText_canonical {source source' : String} {program program' : List Module}
    (h : parseText source = .ok program) (h' : parseText source' = .ok program') :
    (∀ l : Layout, l.formatText source = l.formatText source' ↔
      eraseSpans program = eraseSpans program') ∧
    (∀ l l' : Layout, ∃ text text', l.formatText source = .ok text ∧
      l'.formatText source = .ok text' ∧ l'.formatText text = .ok text') ∧
    (∀ l : Layout, ∃ text, l.formatText source = .ok text ∧ l.formatText text = .ok text) ∧
    ∃ text, Layout.standard.formatText source = .ok text ∧
      Layout.isFormatted text = .ok true := by
  have hof := Layout.formatText_of_parseText h
  have hof' := Layout.formatText_of_parseText h'
  refine ⟨fun l => ⟨fun hf => ?_, fun he => ?_⟩, fun l l' => ?_, fun l => ?_, ?_⟩
  · rw [hof, hof', Except.ok.injEq] at hf
    exact eraseSpans_eq_of_format h h' hf
  · rw [hof, hof', ← l.format_eraseSpans program, he, l.format_eraseSpans]
  · exact ⟨_, _, hof l, hof l', Layout.formatText_format h l l'⟩
  · exact ⟨_, hof l, Layout.formatText_format h l l⟩
  · refine ⟨_, hof .standard, ?_⟩
    rw [Layout.isFormatted, Layout.formatText_format h]
    simp only [Except.map, decide_true]

/-- A module with one attribute, whose declarations stand at the given places. -/
def attributeModule (interfaceSpan annotationSpan attributeSpan : Span) : List Module :=
  let tag : Annotation := ⟨"d", some (.string "\t"), annotationSpan⟩
  let member : Member := .attribute ⟨"a", "T", .readWrite, [tag], attributeSpan⟩
  [⟨"M", [.ofMembers "I" [member] [] interfaceSpan], [], ⟨7, 8, 1, 8⟩⟩]

theorem formatText_attributeModule :
    let source := "module M\x7binterface I\x7b@d(\"\\t\")readwrite T a;\x7d\x7d"
    let source' := "module M\n\x7b interface I \x7b @d ( \"\t\" ) T a ; \x7d \x7d // é"
    parseText source = .ok (attributeModule ⟨19, 20, 1, 20⟩ ⟨21, 29, 1, 22⟩ ⟨41, 42, 1, 42⟩) ∧
      parseText source' = .ok (attributeModule ⟨21, 22, 2, 13⟩ ⟨25, 35, 2, 17⟩ ⟨38, 39, 2, 30⟩) ∧
      (∀ l : Layout, l.formatText source = l.formatText source') ∧
      (∀ l l' : Layout, ∃ text text', l.formatText source = .ok text ∧
        l'.formatText source = .ok text' ∧ l'.formatText text = .ok text') ∧
      ∃ text, Layout.standard.formatText source = .ok text ∧
        Layout.isFormatted text = .ok true := by
  intro source source'
  have h : parseText source =
      .ok (attributeModule ⟨19, 20, 1, 20⟩ ⟨21, 29, 1, 22⟩ ⟨41, 42, 1, 42⟩) := by
    decide +kernel
  have h' : parseText source' =
      .ok (attributeModule ⟨21, 22, 2, 13⟩ ⟨25, 35, 2, 17⟩ ⟨38, 39, 2, 30⟩) := by
    decide +kernel
  obtain ⟨hsame, hlast, -, hstandard⟩ := formatText_canonical h h'
  exact ⟨h, h', fun l => (hsame l).mpr rfl, hlast, hstandard⟩

end Idl
