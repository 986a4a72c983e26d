import Idl.Draft
import Mathlib.Data.PFun

/-! # Recursive descent

Another way to read a program: one computation per rule of the grammar, which looks at the token at
its position, moves past the tokens it wants and calls the computations of the rules below it. All
computations share the list of tokens and one position, which `advance` alone moves.

Five rules repeat something, each by a `Loop` that runs until a token tells it to stop. Nothing
bounds a loop, so a computation need not return: its outcome is a partial value. That it always has
one is a theorem and not a part of the definitions.

* `Descent.advance`: moves past one token, but never past an end.
* `Descent.loop`: a loop; `Loop.Ends`: how many iterations it completes, and how it ends.
* `Descent.annotations`, `member`, `interfaceDecl`, `moduleDecl`, `program`: the rules. -/

namespace Idl

/-- **A computation over a list of tokens**: from a position it comes to a result or an error, and
to the position where it stopped, unless it does not return. -/
abbrev Descent (α : Type) := ReaderT (List Token) (ExceptT ParseError (StateT Nat Part)) α

/-- What a loop repeats, and with which token it goes on. -/
structure Loop (σ : Type) where
  goesOn : σ → Token → Bool
  body : σ → Descent σ

namespace Descent

variable {α β σ : Type}

/-- What a computation comes to from a position. -/
def run (m : Descent α) (ts : List Token) (p : Nat) : Part (Except ParseError α × Nat) := m ts p

theorem run_pure (a : α) (ts : List Token) (p : Nat) : run (pure a) ts p = .some (.ok a, p) := rfl

theorem run_throw (e : ParseError) (ts : List Token) (p : Nat) :
    run (throw e : Descent α) ts p = .some (.error e, p) := rfl

theorem run_bind (m : Descent α) (f : α → Descent β) (ts : List Token) (p : Nat) :
    run (m >>= f) ts p =
      (run m ts p).bind fun x => (ExceptT.bindCont (fun a => f a ts) x.1 : StateT Nat Part _) x.2 :=
  rfl

theorem run_bind_ok {m : Descent α} {ts : List Token} {p q : Nat} {a : α}
    (h : run m ts p = .some (.ok a, q)) (f : α → Descent β) :
    run (m >>= f) ts p = run (f a) ts q := by
  rw [run_bind, h, Part.bind_some]
  rfl

theorem run_bind_error {m : Descent α} {ts : List Token} {p q : Nat} {e : ParseError}
    (h : run m ts p = .some (.error e, q)) (f : α → Descent β) :
    run (m >>= f) ts p = .some (.error e, q) := by
  rw [run_bind, h, Part.bind_some]
  rfl

/-- What a sequence comes to is an error of its first part or comes from its second. -/
theorem run_bind_cases {m : Descent α} {f : α → Descent β} {ts : List Token} {p q : Nat}
    {r : Except ParseError β} (h : run (m >>= f) ts p = .some (r, q)) :
    (∃ a p', run m ts p = .some (.ok a, p') ∧ run (f a) ts p' = .some (r, q)) ∨
      ∃ e, r = .error e ∧ run m ts p = .some (.error e, q) := by
  rw [Part.eq_some_iff, run_bind, Part.mem_bind_iff] at h
  obtain ⟨⟨first, p'⟩, hm, hf⟩ := h
  have hrun : run m ts p = .some (first, p') := Part.eq_some_iff.mpr hm
  cases first with
  | ok a => exact .inl ⟨a, p', hrun, Part.eq_some_iff.mpr hf⟩
  | error e =>
    cases Part.mem_some_iff.mp hf
    exact .inr ⟨e, rfl, hrun⟩

/-! ### One token -/

/-- The token at a position. Behind the last one stands an end. -/
def tokenAt (ts : List Token) (p : Nat) : Token := ts[p]?.getD .implicitEnd

/-- Looks at the next token. -/
def peek : Descent Token := fun ts p => .some (.ok (tokenAt ts p), p)

/-- **Moves past the next token**, unless it is an end. -/
def advance : Descent Token := fun ts p =>
  .some (.ok (tokenAt ts p), if (tokenAt ts p).isEnd then p else p + 1)

theorem run_peek (ts : List Token) (p : Nat) : run peek ts p = .some (.ok (tokenAt ts p), p) := rfl

theorem run_advance (ts : List Token) (p : Nat) :
    run advance ts p =
      .some (.ok (tokenAt ts p), if (tokenAt ts p).isEnd then p else p + 1) := rfl

/-- Moves past a token of some sort and gives what it stands for. -/
def expect (expected : Expected) (view : Token → Option α) : Descent α := do
  let t ← peek
  match view t with
  | some a =>
    let _ ← advance
    return a
  | none => throw (.unexpectedToken expected t)

def expectMark (expected : Expected) (mark : Punctuation) : Descent Token :=
  expect expected (Option.guard fun t => t.isMark mark)

def expectWord (expected : Expected) (word : Keyword) : Descent Token :=
  expect expected (Option.guard fun t => t.isWord word)

/-- The name that a token is, with its place. -/
def label? (t : Token) : Option (String × Span) := t.name?.map fun name => (name, t.span)

def expectName (expected : Expected) : Descent (String × Span) := expect expected label?

/-- Moves past a mark if it comes next, and tells whether it did. -/
def tryMark (mark : Punctuation) : Descent Bool := do
  let t ← peek
  if t.isMark mark then
    let _ ← advance
    return true
  else return false

end Descent

/-! ### Loops -/

namespace Loop

variable {σ : Type}

/-- One turn of a loop: it runs its body or leaves, as the next token says. What it comes to is on
the left if the loop is over, on the right if it goes on from there. -/
def turn (l : Loop σ) (ts : List Token) : σ × Nat →. (Except ParseError σ × Nat) ⊕ (σ × Nat) :=
  fun (s, p) =>
    if l.goesOn s (Descent.tokenAt ts p) then
      (Descent.run (l.body s) ts p).map fun
        | (.ok next, q) => .inr (next, q)
        | (.error e, q) => .inl (.error e, q)
    else .some (.inl (.ok s, p))

/-- **A loop ends**: from a state and a position it completes some number of iterations, and then
leaves with the state it has or stops at an error of the iteration it began. -/
inductive Ends (l : Loop σ) (ts : List Token) :
    Nat → σ → Nat → Except ParseError σ × Nat → Prop where
  | leave {s : σ} {p : Nat} (hg : l.goesOn s (Descent.tokenAt ts p) = false) :
      Ends l ts 0 s p (.ok s, p)
  | stop {s : σ} {p q : Nat} {e : ParseError} (hg : l.goesOn s (Descent.tokenAt ts p) = true)
      (hb : Descent.run (l.body s) ts p = .some (.error e, q)) : Ends l ts 0 s p (.error e, q)
  | again {n : Nat} {s next : σ} {p q : Nat} {outcome : Except ParseError σ × Nat}
      (hg : l.goesOn s (Descent.tokenAt ts p) = true)
      (hb : Descent.run (l.body s) ts p = .some (.ok next, q))
      (later : Ends l ts n next q outcome) : Ends l ts (n + 1) s p outcome

section Ends
variable {l : Loop σ} {ts : List Token} {s next : σ} {p q : Nat} {e : ParseError}

theorem turn_leave (hg : l.goesOn s (Descent.tokenAt ts p) = false) :
    l.turn ts (s, p) = .some (.inl (.ok s, p)) := by
  simp only [turn, hg, Bool.false_eq_true, if_false]

theorem turn_stop (hg : l.goesOn s (Descent.tokenAt ts p) = true)
    (hb : Descent.run (l.body s) ts p = .some (.error e, q)) :
    l.turn ts (s, p) = .some (.inl (.error e, q)) := by
  simp only [turn, hg, if_true, hb, Part.map_some]

theorem turn_again (hg : l.goesOn s (Descent.tokenAt ts p) = true)
    (hb : Descent.run (l.body s) ts p = .some (.ok next, q)) :
    l.turn ts (s, p) = .some (.inr (next, q)) := by
  simp only [turn, hg, if_true, hb, Part.map_some]

/-- **What one turn can come to**: the loop leaves, or its body fails, or its body succeeds. -/
theorem turn_cases {x : (Except ParseError σ × Nat) ⊕ (σ × Nat)} (h : x ∈ l.turn ts (s, p)) :
    (l.goesOn s (Descent.tokenAt ts p) = false ∧ x = .inl (.ok s, p)) ∨
      (∃ e q, l.goesOn s (Descent.tokenAt ts p) = true ∧
        Descent.run (l.body s) ts p = .some (.error e, q) ∧ x = .inl (.error e, q)) ∨
      ∃ next q, l.goesOn s (Descent.tokenAt ts p) = true ∧
        Descent.run (l.body s) ts p = .some (.ok next, q) ∧ x = .inr (next, q) := by
  cases hg : l.goesOn s (Descent.tokenAt ts p) with
  | false =>
    rw [turn_leave hg, Part.mem_some_iff] at h
    exact .inl ⟨rfl, h⟩
  | true =>
    simp only [turn, hg, if_true, Part.mem_map_iff] at h
    obtain ⟨⟨r, q⟩, hb, rfl⟩ := h
    have hrun : Descent.run (l.body s) ts p = .some (r, q) := Part.eq_some_iff.mpr hb
    cases r with
    | ok next => exact .inr (.inr ⟨next, q, rfl, hrun, rfl⟩)
    | error e => exact .inr (.inl ⟨e, q, rfl, hrun, rfl⟩)

end Ends

end Loop

namespace Descent

/-- **Repeats the body of a loop** for as long as the next token lets it go on. -/
def loop {σ : Type} (l : Loop σ) (s : σ) : Descent σ := fun ts p => (l.turn ts).fix (s, p)

/-- **A loop returns exactly if it ends**, after some number of iterations. -/
theorem run_loop_eq_some_iff {σ : Type} {l : Loop σ} {ts : List Token} {s : σ} {p : Nat}
    {outcome : Except ParseError σ × Nat} :
    run (loop l s) ts p = .some outcome ↔ ∃ n, l.Ends ts n s p outcome := by
  rw [Part.eq_some_iff]
  change outcome ∈ (l.turn ts).fix (s, p) ↔ _
  constructor
  · intro h
    -- The induction runs over the turns, from the last one back.
    refine PFun.fixInduction' (C := fun x => ∃ n, l.Ends ts n x.1 x.2 outcome) h ?_ ?_
    · rintro ⟨s, p⟩ hlast
      rcases Loop.turn_cases hlast with ⟨hg, hx⟩ | ⟨e, q, hg, hb, hx⟩ | ⟨next, q, -, -, hx⟩
      · cases hx
        exact ⟨0, .leave hg⟩
      · cases hx
        exact ⟨0, .stop hg hb⟩
      · cases hx
    · rintro ⟨s, p⟩ ⟨next, q⟩ - hturn ⟨n, later⟩
      rcases Loop.turn_cases hturn with ⟨-, hx⟩ | ⟨e, q', -, -, hx⟩ | ⟨next', q', hg, hb, hx⟩
      · cases hx
      · cases hx
      · cases hx
        exact ⟨n + 1, .again hg hb later⟩
  · rintro ⟨n, h⟩
    induction h with
    | leave hg => exact PFun.fix_stop (Part.eq_some_iff.mp (Loop.turn_leave hg))
    | stop hg hb => exact PFun.fix_stop (Part.eq_some_iff.mp (Loop.turn_stop hg hb))
    | again hg hb _ ih =>
      rw [PFun.fix_fwd_eq (Part.eq_some_iff.mp (Loop.turn_again hg hb))]
      exact ih

variable {α : Type}

/-! ### Annotations -/

/-- One more annotation, from its sign on. -/
def annotate (before : List Annotation) : Descent (List Annotation) := do
  let sign ← advance
  let (name, span) ← expectName .annotationName
  if ← tryMark .openParen then
    let value ← expect .annotationValue Token.literal?
    let closing ← expectMark .closeParen .closeParen
    return before ++ [⟨name, some value, sign.span.merge closing.span⟩]
  else return before ++ [⟨name, none, sign.span.merge span⟩]

def annotationLoop : Loop (List Annotation) where
  goesOn _ t := t.isMark .atSign
  body := annotate

/-- All annotations in front of a declaration. -/
def annotations : Descent (List Annotation) := loop annotationLoop []

/-- Refuses the end of a block or of the input behind annotations. -/
def rejectDangling (as : List Annotation) : Descent Unit :=
  match as.getLast? with
  | none => pure ()
  | some last => do
    let t ← peek
    if t.isEnd || t.isMark .closeBrace then throw (.dangling t last.span) else return ()

/-- The annotations in front of a declaration that has to follow them. -/
def front : Descent (List Annotation) := do
  let as ← annotations
  rejectDangling as
  return as

/-! ### Members -/

/-- The visibility modifier of a member, if it has one. -/
def modifier : Descent (Option Modifier) := do
  let t ← peek
  match t.visibility? with
  | some v =>
    let _ ← advance
    return some ⟨v, t.span⟩
  | none => return none

/-- The parameters read so far, and whether a comma announces another one. -/
structure ParameterState where
  parameters : List Parameter
  more : Bool

/-- One more parameter, with the comma behind it. -/
def parameter (before : ParameterState) : Descent ParameterState := do
  let (type, _) ← expectName .typeName
  let (name, span) ← expectName .parameterName
  let more ← tryMark .comma
  return ⟨before.parameters ++ [⟨type, name, span⟩], more⟩

def parameterLoop : Loop ParameterState where
  goesOn s _ := s.more
  body := parameter

/-- The parameters of a method, up to the closing parenthesis. -/
def parameters : Descent (List Parameter) := do
  let t ← peek
  if t.isMark .closeParen then return []
  else
    let all ← loop parameterLoop ⟨[], true⟩
    return all.parameters

/-- A method from its opening parenthesis on. -/
def methodRest (h : MemberHeading) (name : String) (span : Span) : Descent Member :=
  match h.modifier with
  | some modifier => throw (.visibilityOnMethod name modifier.span)
  | none => do
    let _ ← advance
    let parameters ← parameters
    let _ ← expectMark .closeParen .closeParen
    let _ ← expectMark .semicolon .semicolon
    return .method ⟨h.type, name, parameters, h.annotations, span⟩

/-- A member behind its name: an opening parenthesis makes it a method, a semicolon an attribute. -/
def memberRest (h : MemberHeading) (name : String) (span : Span) : Descent Member := do
  let t ← peek
  if t.isMark .openParen then methodRest h name span
  else
    if ← tryMark .semicolon then return .attribute (h.attribute name span)
    else throw (.unexpectedToken .openParenOrSemicolon t)

/-- A member up to its type. -/
def memberHeading : Descent MemberHeading := do
  let as ← front
  let modifier ← modifier
  let (type, _) ← expectName .typeName
  return ⟨as, modifier, type⟩

/-- **An attribute or a method.** -/
def member : Descent Member := do
  let h ← memberHeading
  let (name, span) ← expectName .memberName
  memberRest h name span

/-- Whether a member can start with a token. -/
def startsMember (t : Token) : Bool :=
  t.name?.isSome || t.isMark .atSign || t.visibility?.isSome

/-! ### Blocks -/

/-- Adds a declaration to those before it, unless it repeats the name of one. -/
def add (clash : Option ParseError) (before : List α) (a : α) : Descent (List α) :=
  match clash with
  | some error => throw error
  | none => return before ++ [a]

/-- The error for an attribute whose name is taken. -/
def memberClash (before : List Member) (m : Member) : Option ParseError :=
  m.attribute?.bind fun a => (Draft.attributeNamed? before a.name).map fun first =>
    .duplicateName .attribute a.name a.span first.span

/-- One more member of an interface. -/
def nextMember (before : List Member) : Descent (List Member) := do
  let t ← peek
  if startsMember t then
    let m ← member
    add (memberClash before m) before m
  else throw (.unexpectedToken .memberOrClose t)

def memberLoop : Loop (List Member) where
  goesOn _ t := !t.isMark .closeBrace
  body := nextMember

/-- The name of a block and the brace that opens it, behind its keyword. -/
def blockStart (keyword : Expected) (word : Keyword) (name : Expected) :
    Descent (String × Span) := do
  let _ ← expectWord keyword word
  let label ← expectName name
  let _ ← expectMark .openBrace .openBrace
  return label

/-- **An interface.** -/
def interfaceDecl : Descent Interface := do
  let as ← front
  let (name, span) ← blockStart .interfaceKeyword .interface .interfaceName
  let members ← loop memberLoop []
  let _ ← expectMark .closeBrace .closeBrace
  return .ofMembers name members as span

/-- The error for an interface whose name is taken. -/
def interfaceClash (before : List Interface) (i : Interface) : Option ParseError :=
  (before.find? fun other => other.name = i.name).map fun first =>
    .duplicateName .interface i.name i.span first.span

/-- One more interface of a module. -/
def nextInterface (before : List Interface) : Descent (List Interface) := do
  let t ← peek
  if t.isMark .atSign || t.isWord .interface then
    let i ← interfaceDecl
    add (interfaceClash before i) before i
  else throw (.unexpectedToken .interfaceOrClose t)

def interfaceLoop : Loop (List Interface) where
  goesOn _ t := !t.isMark .closeBrace
  body := nextInterface

/-- **A module** behind its annotations, with the place of its closing brace. -/
def moduleDecl (as : List Annotation) : Descent (Module × Span) := do
  let (name, span) ← blockStart .moduleKeyword .module .moduleName
  let interfaces ← loop interfaceLoop []
  let closing ← expectMark .closeBrace .closeBrace
  return (⟨name, interfaces, as, span⟩, closing.span)

/-- The error for a module whose name is taken. It is refused at its closing brace. -/
def moduleClash (before : List Module) (m : Module) (closing : Span) : Option ParseError :=
  (before.find? fun other => other.name = m.name).map fun first =>
    .duplicateName .module m.name closing first.span

/-- One more module of a program. -/
def nextModule (before : List Module) : Descent (List Module) := do
  let t ← peek
  if t.isMark .atSign || t.isWord .module then
    let as ← front
    let (m, closing) ← moduleDecl as
    add (moduleClash before m closing) before m
  else throw (.trailingInput t)

def moduleLoop : Loop (List Module) where
  goesOn _ t := !t.isEnd
  body := nextModule

/-- **A program.** -/
def program : Descent (List Module) := loop moduleLoop []

end Descent

end Idl
