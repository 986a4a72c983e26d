import Idl.Proofs.Lexeme.Concatenation

/-! # Reading a text behind another one

A program can be read behind complete modules. They take part in one thing only, the search for a
module of the same name; so tokens that name none of them are read as if nothing stood before them,
and the modules are added in front (`read_behind`). Together with the scan of two texts this makes
parsing local: behind a program, a text on a line of its own is parsed as if it stood alone, errors
included, and only its spans move.

* `advance_behind`: the step does not see complete modules.
* `clash_behind`: neither does the check of names, if no token has named one of them.
* `parseText_append_newline`: two texts one behind the other. -/

namespace Idl

open Grammar

/-! ### Drafts behind complete modules -/

/-- An open module behind more complete ones. -/
def ModuleBody.behind (ms : List Module) (b : ModuleBody) : ModuleBody :=
  { b with modules := ms ++ b.modules }

/-- An open interface behind more complete modules. -/
def InterfaceBody.behind (ms : List Module) (b : InterfaceBody) : InterfaceBody :=
  { b with outer := b.outer.behind ms }

/-- A scope behind more complete modules. -/
def Scope.behind (ms : List Module) : Scope → Scope
  | .program modules => .program (ms ++ modules)
  | .module body => .module (body.behind ms)
  | .interface body => .interface (body.behind ms)

namespace Draft

/-- **A draft behind more complete modules.** -/
def behind (ms : List Module) : Draft → Draft
  | .ready scope pending => .ready (scope.behind ms) pending
  | .annotationSign scope pending sign => .annotationSign (scope.behind ms) pending sign
  | .annotationName scope pending sign name span =>
    .annotationName (scope.behind ms) pending sign name span
  | .annotationOpen scope pending sign name => .annotationOpen (scope.behind ms) pending sign name
  | .annotationValue scope pending sign name value =>
    .annotationValue (scope.behind ms) pending sign name value
  | .moduleKeyword modules annotations => .moduleKeyword (ms ++ modules) annotations
  | .moduleName modules heading => .moduleName (ms ++ modules) heading
  | .interfaceKeyword body annotations => .interfaceKeyword (body.behind ms) annotations
  | .interfaceName body heading => .interfaceName (body.behind ms) heading
  | .memberModifier body annotations modifier =>
    .memberModifier (body.behind ms) annotations modifier
  | .memberType body heading => .memberType (body.behind ms) heading
  | .memberName body heading name span => .memberName (body.behind ms) heading name span
  | .parametersOpen body method => .parametersOpen (body.behind ms) method
  | .parameterComma body method => .parameterComma (body.behind ms) method
  | .parameterType body method type => .parameterType (body.behind ms) method type
  | .parameterName body method => .parameterName (body.behind ms) method
  | .parametersClose body method => .parametersClose (body.behind ms) method

section Step
variable (ms : List Module)

theorem close_behind (b : ModuleBody) : (b.behind ms).close = ms ++ b.close := by
  simp [ModuleBody.close, ModuleBody.behind]

theorem accept_behind (scope : Scope) (pending : List Annotation) (t : Token) :
    accept (scope.behind ms) pending t = (accept scope pending t).map (behind ms) := by
  unfold accept
  split
  · rfl
  cases scope with
  | program modules =>
    simp only [Scope.behind]
    split <;> rfl
  | module body =>
    simp only [Scope.behind]
    split
    · rfl
    split
    · rw [close_behind]; rfl
    · rfl
  | interface body =>
    simp only [Scope.behind]
    split
    · rfl
    split
    · rfl
    · cases t.name? <;> rfl

/-- **A token is let come next behind complete modules** if it is without them. -/
theorem advance_behind (d : Draft) (t : Token) :
    (d.behind ms).advance t = (d.advance t).map (behind ms) := by
  cases d with
  | ready scope pending => exact accept_behind ms scope pending t
  | annotationName scope pending sign name span =>
    simp only [behind, advance, accept_behind]
    split <;> rfl
  | annotationOpen => simp only [behind, advance]; cases t.literal? <;> rfl
  | memberName body heading name span =>
    simp only [behind, advance]
    split
    · rfl
    split <;> rfl
  | parametersOpen body method =>
    simp only [behind, advance, acceptParameter]
    split
    · rfl
    · cases t.name? <;> rfl
  | parameterName body method =>
    simp only [behind, advance]
    split
    · rfl
    split <;> rfl
  | annotationValue | moduleName | interfaceName | parametersClose =>
    simp only [behind, advance]
    split <;> rfl
  | annotationSign | moduleKeyword | interfaceKeyword | memberModifier | memberType
  | parameterComma | parameterType =>
    simp only [behind, advance, acceptParameter]
    cases t.name? <;> rfl

theorem refusal_behind (d : Draft) (t : Token) : (d.behind ms).refusal t = d.refusal t := by
  have hbetween : ∀ scope pending,
      refusalBetween (Scope.behind ms scope) pending t = refusalBetween scope pending t := by
    intro scope pending
    cases scope <;> rfl
  cases d with
  | ready => exact hbetween _ _
  | annotationName => exact hbetween _ _
  | _ => rfl

theorem finish_behind (d : Draft) (t : Token) :
    (d.behind ms).finish t = (d.finish t).map (ms ++ ·) := by
  have hr := refusal_behind ms d t
  cases d with
  | ready scope pending =>
    cases pending with
    | nil =>
      cases scope with
      | program modules => rfl
      | _ => exact congrArg Except.error hr
    | cons => cases scope <;> exact congrArg Except.error hr
  | _ => exact congrArg Except.error hr

end Step

/-! ### Names -/

/-- No token is the name of one of the modules. -/
def Unnamed (ms : List Module) (ts : List Token) : Prop :=
  ∀ m ∈ ms, ∀ t ∈ ts, t.kind ≠ .identifier m.name

section Names
variable {ms : List Module}

theorem exists_name_of_blockStart {word : Keyword} {ts : List Token} {heading : Heading}
    (h : BlockStart word ts heading) : ∃ t ∈ ts, t.kind = .identifier heading.name := by
  cases h with
  | @mk us keyword label brace annotations name ha hk hn hb => exact ⟨label, by simp, hn⟩

theorem exists_name_of_reads {body : ModuleBody} {ts : List Token}
    (h : (Scope.module body).Reads ts) : ∃ t ∈ ts, t.kind = .identifier body.heading.name := by
  obtain _ | @⟨us, vs, ws, _, -, hs, -⟩ := h
  obtain ⟨t, ht, hk⟩ := exists_name_of_blockStart hs
  exact ⟨t, by simp [ht], hk⟩

/-- **Names clash alike behind complete modules** that no token has named. -/
theorem clash_behind {d : Draft} {us : List Token} (hr : Reads d us) (hn : Unnamed ms us)
    (t : Token) : (d.behind ms).clash t = d.clash t := by
  cases d with
  | ready scope pending =>
    cases pending with
    | cons a pending => cases scope <;> rfl
    | nil =>
      cases scope with
      | module body =>
        obtain @⟨_, ts, vs, _, hs, -⟩ := hr
        obtain ⟨u, hu, hk⟩ := exists_name_of_reads hs
        have hfind : ms.find? (fun m => m.name = body.heading.name) = none := by
          refine List.find?_eq_none.mpr fun m hm he => ?_
          have hname : m.name = body.heading.name := by simpa using he
          exact hn m hm u (List.mem_append_left _ hu) (by rw [hk, hname])
        simp [behind, Scope.behind, clash, ModuleBody.behind, List.find?_append, hfind]
      | _ => rfl
  | _ => rfl

/-- **Tokens that name no complete module are read as if there were none.** -/
theorem read_behind {d : Draft} {us ts : List Token} (hr : Reads d us)
    (hn : Unnamed ms (us ++ ts)) :
    (d.behind ms).read ts = (d.read ts).map (ms ++ ·) := by
  induction ts generalizing d us with
  | nil => exact finish_behind ms d _
  | cons t ts ih =>
    cases he : t.isEnd with
    | true => rw [read_end _ he, read_end _ he, finish_behind]
    | false =>
      have hus : Unnamed ms us := fun m hm u hu => hn m hm u (List.mem_append_left _ hu)
      have hclash := clash_behind hr hus t
      cases hc : d.clash t with
      | some e =>
        rw [read_of_error he (step_of_clash hc), read_of_error he (step_of_clash (hclash.trans hc))]
        rfl
      | none =>
        have hadv := advance_behind ms d t
        cases ha : d.advance t with
        | none =>
          rw [ha] at hadv
          rw [read_of_error he (step_of_refused ha), read_of_error he (step_of_refused hadv),
            refusal_behind]
          rfl
        | some d' =>
          rw [ha] at hadv
          rw [read_cons (step_eq_ok_iff.mpr ⟨hc, ha⟩),
            read_cons (step_eq_ok_iff.mpr ⟨hclash.trans hc, hadv⟩)]
          exact ih (hr.advance ha) (by simpa using hn)

end Names

end Draft

/-! ### Two texts -/

/-- An error of a text at another place. -/
def SyntaxError.mapSpan (f : Span → Span) : SyntaxError → SyntaxError
  | .lex error => .lex (error.mapSpan f)
  | .parse error => .parse (error.mapSpan f)

/-- No lexeme is an end token, so a scan has one at its end only. -/
theorem Scan.isEnd_of_mem_dropLast {source : String} {scan : Scan} (h : ofText source = .ok scan)
    {t : Token} (ht : t ∈ scan.tokens.dropLast) : t.isEnd = false := by
  obtain ⟨ls, hl, rfl⟩ := ofText_eq_ok_iff.mp h
  obtain ⟨text, -, hs⟩ := (holds_of_longestCut hl).tokens t ht
  refine Bool.eq_false_iff.mpr fun he => ?_
  rw [Token.isEnd_iff.mp he] at hs
  cases hs

theorem Scan.tokens_eq_of_ofText {source : String} {scan : Scan} (h : ofText source = .ok scan) :
    ∃ t, t.isEnd = true ∧ scan.tokens = scan.tokens.dropLast ++ [t] := by
  obtain ⟨ls, hl, rfl⟩ := ofText_eq_ok_iff.mp h
  refine ⟨⟨.endOfInput, .point (Position.start.after (Lexeme.texts ls))⟩, rfl, ?_⟩
  rw [tokens_ofLexemes, List.dropLast_concat]

theorem parse_append {ts us : List Token} {ms : List Module} (hts : ∀ t ∈ ts, t.isEnd = false)
    {t : Token} (ht : t.isEnd = true) (h : parse (ts ++ [t]) = .ok ms) (hn : Draft.Unnamed ms us) :
    parse (ts ++ us) = (parse us).map (ms ++ ·) := by
  have hbefore : Token.beforeEnd (ts ++ [t]) = ts := by
    have hall : ∀ u ∈ ts, (!u.isEnd) = true := fun u hu => by rw [hts u hu]; rfl
    rw [Token.beforeEnd, List.takeWhile_append_of_pos hall]
    simp [ht]
  obtain ⟨hrun, hd⟩ := (Draft.read_eq_ok_iff Draft.distinct_empty).mp h
  rw [hbefore] at hrun
  have hread : parse (ts ++ us) = (Draft.ready (.program ms) []).read us :=
    Draft.read_append_of_run hrun hd
  have hempty : Draft.ready (.program ms) [] = Draft.empty.behind ms := by
    simp [Draft.empty, Draft.behind, Scope.behind]
  rw [hread, hempty, Draft.read_behind Draft.reads_empty (by simpa using hn)]
  rfl

/-- The scans of two texts one behind the other, of which the first is a program. -/
theorem parse_scan_append {a b : String} {scan later : Scan} {ma : List Module}
    (ha : Scan.ofText a = .ok scan) (hb : Scan.ofText b = .ok later)
    (hp : parse scan.tokens = .ok ma) (hn : Draft.Unnamed ma later.tokens) :
    parse (scan.append (later.mapSpan (.behind a))).tokens =
      ((parse later.tokens).map fun mb => ma ++ mb.map (·.mapSpan (.behind a))).mapError
        (ParseError.mapSpan (.behind a)) := by
  obtain ⟨t, ht, htokens⟩ := Scan.tokens_eq_of_ofText ha
  obtain ⟨u, hu, hlater⟩ := Scan.tokens_eq_of_ofText hb
  have hend : ∃ t ∈ later.tokens, t.isEnd = true := ⟨u, by rw [hlater]; simp, hu⟩
  have hmoved : Draft.Unnamed ma (later.tokens.map (Token.mapSpan (.behind a))) := by
    intro m hm v hv
    obtain ⟨w, hw, rfl⟩ := List.mem_map.mp hv
    exact hn m hm w hw
  have hspan : parse (later.tokens.map (Token.mapSpan (.behind a))) =
      ((parse later.tokens).map (List.map (·.mapSpan (.behind a)))).mapError
        (ParseError.mapSpan (.behind a)) :=
    Draft.read_mapSpan (Span.behind_merge a) .empty hend
  rw [htokens] at hp
  have happend := parse_append (fun v hv => Scan.isEnd_of_mem_dropLast ha hv) ht hp hmoved
  rw [hspan] at happend
  refine happend.trans ?_
  cases parse later.tokens <;> rfl

/-- **Behind a program a text is parsed as if it stood alone.** On a line of its own, and if no
identifier in it is the name of a module before it, it adds its modules or fails as it does alone;
only its spans move. A text that cannot be scanned has no identifiers. -/
theorem parseText_append_newline {a : String} {ma : List Module} (ha : parseText a = .ok ma)
    {b : String} (hn : ∀ scan, Scan.ofText b = .ok scan →
      ∀ m ∈ ma, ∀ t ∈ scan.tokens, t.kind ≠ .identifier m.name) :
    (∀ mb, parseText b = .ok mb →
      parseText (a ++ "\n" ++ b) = .ok (ma ++ mb.map (·.mapSpan (.behind a)))) ∧
    ∀ e, parseText b = .error e →
      parseText (a ++ "\n" ++ b) = .error (e.mapSpan (.behind a)) := by
  obtain ⟨scan, hscan, hparse⟩ := parseText_eq_ok_iff.mp ha
  have htext := Scan.ofText_append_newline hscan b
  cases hb : Scan.ofText b with
  | error error =>
    rw [hb] at htext
    have halone : parseText b = .error (.lex error) := by rw [parseText, hb]
    have hboth : parseText (a ++ "\n" ++ b) = .error (.lex (error.mapSpan (.behind a))) := by
      rw [parseText, htext]
      rfl
    rw [halone, hboth]
    constructor
    · intro mb h
      cases h
    · intro e h
      cases h
      rfl
  | ok later =>
    rw [hb] at htext
    rw [parseText_of_ofText hb, parseText_of_ofText htext,
      parse_scan_append hscan hb hparse (hn later hb)]
    cases parse later.tokens with
    | error error =>
      constructor
      · intro mb h
        cases h
      · intro e h
        cases h
        rfl
    | ok mb =>
      constructor
      · intro mb' h
        cases h
        rfl
      · intro e h
        cases h

/-- The annotation `@x` dangles at the end of the input, alone and behind a module and a comment
that the line feed ends. -/
theorem parseText_append_dangling :
    let a := "module M {} // é"
    let b := "@x"
    parseText a = .ok [⟨"M", [], [], ⟨7, 8, 1, 8⟩⟩] ∧
      parseText b = .error (.parse (.dangling ⟨.endOfInput, ⟨2, 2, 1, 3⟩⟩ ⟨0, 2, 1, 1⟩)) ∧
      parseText (a ++ "\n" ++ b) =
        .error (.parse (.dangling ⟨.endOfInput, ⟨20, 20, 2, 3⟩⟩ ⟨18, 20, 2, 1⟩)) := by
  intro a b
  have ha : parseText a = .ok [⟨"M", [], [], ⟨7, 8, 1, 8⟩⟩] := by
    decide +kernel
  have hb : parseText b = .error (.parse (.dangling ⟨.endOfInput, ⟨2, 2, 1, 3⟩⟩ ⟨0, 2, 1, 1⟩)) := by
    decide +kernel
  have hscan : Scan.ofText b = .ok ⟨[⟨.punctuation .atSign, ⟨0, 1, 1, 1⟩⟩,
      ⟨.identifier "x", ⟨1, 2, 1, 2⟩⟩, ⟨.endOfInput, ⟨2, 2, 1, 3⟩⟩], []⟩ := by
    decide +kernel
  have hn : ∀ scan, Scan.ofText b = .ok scan →
      ∀ m ∈ [(⟨"M", [], [], ⟨7, 8, 1, 8⟩⟩ : Module)], ∀ t ∈ scan.tokens,
        t.kind ≠ .identifier m.name := by
    intro scan hs
    rw [hscan] at hs
    cases hs
    decide
  have hboth := (parseText_append_newline ha hn).2 _ hb
  have hbehind : ∀ s : Span, s.behind a = ⟨s.start + 18, s.stop + 18, s.line + 1, s.column⟩ := by
    intro s
    have hbytes : a.utf8ByteSize = 17 := by decide +kernel
    have hlines : a.toList.count '\n' = 0 := by decide +kernel
    rw [Span.behind, hbytes, hlines]
    rfl
  refine ⟨ha, hb, hboth.trans ?_⟩
  simp only [SyntaxError.mapSpan, ParseError.mapSpan, Token.mapSpan, hbehind]

end Idl
