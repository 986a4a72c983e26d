import Idl.Proofs.Descent.Equivalence

/-! # Progress of the descent

The position can only come to places up to the first end token, where it stops for good. From each
of them every computation returns, and it ends further on if it is one that has to find a token.

Both facts are carried by one predicate, `Gains`, which is closed under sequencing. A loop whose
body gains a token ends, because each iteration that it completes uses up a token of those left;
since the loops are nested, they are shown to end from the inside to the outside.

* `reachable_iff`: the positions up to the first end token, and no others, can be reached.
* `exists_ends`: a loop over a body that gains a token completes at most as many iterations as
  there are tokens left.
* `gains_member`, `gains_interfaceDecl`, `gains_moduleDecl`: the rules gain a token.
* `run_program`: the descent returns on every list, with the result that the list is read into. -/

namespace Idl.Descent

variable {α β σ : Type} {ts : List Token}

/-! ### Positions -/

/-- Where the input ends: at the first end token, or behind the last token if there is none. -/
def limit (ts : List Token) : Nat := ts.findIdx Token.isEnd

/-- **The positions that can be reached from the start.** Only `advance` moves. -/
inductive Reachable (ts : List Token) : Nat → Prop where
  | start : Reachable ts 0
  | move {p q : Nat} {t : Token} (hp : Reachable ts p) (h : run advance ts p = .some (.ok t, q)) :
      Reachable ts q

theorem isEnd_tokenAt_iff {p : Nat} (hp : p ≤ limit ts) :
    (tokenAt ts p).isEnd = true ↔ p = limit ts := by
  have hlen : limit ts ≤ ts.length := List.findIdx_le_length
  unfold tokenAt
  constructor
  · intro he
    by_contra hne
    have hlt : p < limit ts := by omega
    rw [List.getElem?_eq_getElem (by omega), Option.getD_some] at he
    rw [List.not_of_lt_findIdx hlt] at he
    cases he
  · rintro rfl
    by_cases hlt : limit ts < ts.length
    · rw [List.getElem?_eq_getElem hlt, Option.getD_some]
      exact List.findIdx_getElem
    · rw [List.getElem?_eq_none (by omega)]
      rfl

/-- At the end of the input there is an end token, which is never passed. -/
theorem run_advance_limit (ts : List Token) :
    run advance ts (limit ts) = .some (.ok (tokenAt ts (limit ts)), limit ts) := by
  have he : (tokenAt ts (limit ts)).isEnd = true := (isEnd_tokenAt_iff (Nat.le_refl _)).mpr rfl
  rw [run_advance, if_pos he]

theorem run_advance_of_lt {p : Nat} (hp : p < limit ts) :
    run advance ts p = .some (.ok (tokenAt ts p), p + 1) := by
  have he : ¬ (tokenAt ts p).isEnd = true := by
    rw [isEnd_tokenAt_iff (by omega)]
    omega
  rw [run_advance, if_neg he]

/-- **The positions up to the first end token, and no others, can be reached.** -/
theorem reachable_iff {p : Nat} : Reachable ts p ↔ p ≤ limit ts := by
  constructor
  · intro h
    induction h with
    | start => exact Nat.zero_le _
    | @move p q t _ h ih =>
      by_cases hp : p = limit ts
      · subst hp
        rw [run_advance_limit] at h
        have hq : limit ts = q := congrArg Prod.snd (Part.some_inj.mp h)
        omega
      · rw [run_advance_of_lt (by omega)] at h
        have hq : p + 1 = q := congrArg Prod.snd (Part.some_inj.mp h)
        omega
  · intro hp
    induction p with
    | zero => exact .start
    | succ p ih => exact .move (ih (by omega)) (run_advance_of_lt (by omega))

/-! ### Computations that gain tokens -/

/-- **From every position that can be reached the computation returns**, at such a position and no
further back; if it succeeds, at least `k` tokens further on. -/
def Gains (ts : List Token) (k : Nat) (m : Descent α) : Prop :=
  ∀ p, Reachable ts p → ∃ r q, run m ts p = .some (r, q) ∧ Reachable ts q ∧ p ≤ q ∧
    (r.isOk = true → p + k ≤ q)

theorem gains_pure (a : α) : Gains ts 0 (pure a) :=
  fun p hp => ⟨.ok a, p, run_pure a ts p, hp, Nat.le_refl _, fun _ => Nat.le_refl _⟩

theorem gains_throw (k : Nat) (e : ParseError) : Gains ts k (throw e : Descent α) :=
  fun p hp => ⟨.error e, p, run_throw e ts p, hp, Nat.le_refl _, fun h => nomatch h⟩

theorem gains_peek : Gains ts 0 peek :=
  fun p hp => ⟨.ok (tokenAt ts p), p, run_peek ts p, hp, Nat.le_refl _, fun _ => Nat.le_refl _⟩

/-- What a computation gains need not be counted. -/
theorem Gains.weaken {k : Nat} {m : Descent α} (h : Gains ts k m) : Gains ts 0 m := by
  intro p hp
  obtain ⟨r, q, hr, hq, hle, -⟩ := h p hp
  exact ⟨r, q, hr, hq, hle, fun _ => hle⟩

theorem Gains.bind {j k : Nat} {m : Descent α} {f : α → Descent β} (hm : Gains ts j m)
    (hf : ∀ a, Gains ts k (f a)) : Gains ts (j + k) (m >>= f) := by
  intro p hp
  obtain ⟨r, q, hr, hq, hle, hj⟩ := hm p hp
  cases r with
  | error e => exact ⟨.error e, q, run_bind_error hr f, hq, hle, fun h => nomatch h⟩
  | ok a =>
    obtain ⟨r', q', hr', hq', hle', hk⟩ := hf a q hq
    have hpq : p + j ≤ q := hj rfl
    refine ⟨r', q', (run_bind_ok hr f).trans hr', hq', by omega, fun hok => ?_⟩
    have := hk hok
    omega

/-- What comes behind a computation that gains something need not gain more. -/
theorem Gains.then {k : Nat} {m : Descent α} {f : α → Descent β} (hm : Gains ts k m)
    (hf : ∀ a, Gains ts 0 (f a)) : Gains ts k (m >>= f) := hm.bind hf

/-- What comes in front of a computation that gains something need not gain more. -/
theorem Gains.before {k : Nat} {m : Descent α} {f : α → Descent β} (hm : Gains ts 0 m)
    (hf : ∀ a, Gains ts k (f a)) : Gains ts k (m >>= f) := by
  have h := hm.bind hf
  rwa [Nat.zero_add] at h

theorem gains_ite {k : Nat} {c : Prop} [Decidable c] {m m' : Descent α} (h : Gains ts k m)
    (h' : Gains ts k m') : Gains ts k (if c then m else m') := by
  split
  · exact h
  · exact h'

theorem gains_advance : Gains ts 0 advance := by
  intro p hp
  refine ⟨_, _, run_advance ts p, .move hp (run_advance ts p), ?_, fun _ => ?_⟩ <;>
    · split <;> omega

/-- **A token that is asked for is gained**, if it cannot be an end token. -/
theorem gains_expect {expected : Expected} {view : Token → Option α}
    (hview : ∀ t, t.isEnd = true → view t = none) : Gains ts 1 (expect expected view) := by
  intro p hp
  cases hv : view (tokenAt ts p) with
  | none =>
    refine ⟨.error (.unexpectedToken expected (tokenAt ts p)), p, ?_, hp, Nat.le_refl _,
      fun h => nomatch h⟩
    rw [expect, run_bind_ok (run_peek ts p), hv]
    rfl
  | some a =>
    have he : ¬ (tokenAt ts p).isEnd = true := fun he => by rw [hview _ he] at hv; cases hv
    have ha : run advance ts p = .some (.ok (tokenAt ts p), p + 1) := by
      rw [run_advance, if_neg he]
    refine ⟨.ok a, p + 1, ?_, .move hp ha, Nat.le_succ _, fun _ => Nat.le_refl _⟩
    rw [expect, run_bind_ok (run_peek ts p), hv]
    exact run_bind_ok ha _

theorem gains_expectMark (expected : Expected) (mark : Punctuation) :
    Gains ts 1 (expectMark expected mark) :=
  gains_expect fun t he => by
    simp [Option.guard, Token.isMark, Token.isEnd_iff.mp he]

theorem gains_expectWord (expected : Expected) (word : Keyword) :
    Gains ts 1 (expectWord expected word) :=
  gains_expect fun t he => by
    simp [Option.guard, Token.isWord, Token.isEnd_iff.mp he]

theorem gains_expectName (expected : Expected) : Gains ts 1 (expectName expected) :=
  gains_expect fun t he => by
    simp [label?, Token.name?, Token.isEnd_iff.mp he]

theorem gains_literal : Gains ts 1 (expect .annotationValue Token.literal?) :=
  gains_expect fun t he => by simp [Token.literal?, Token.isEnd_iff.mp he]

theorem gains_tryMark (mark : Punctuation) : Gains ts 0 (tryMark mark) :=
  gains_peek.then fun _ => gains_ite (gains_advance.then fun _ => gains_pure _) (gains_pure _)

/-! ### Loops -/

/-- **A loop over a body that gains a token ends**: each iteration that it completes uses up one of
the tokens left. -/
theorem exists_ends {l : Loop σ} (hl : ∀ s, Gains ts 1 (l.body s)) (s : σ) {p : Nat}
    (hp : Reachable ts p) : ∃ n outcome, l.Ends ts n s p outcome ∧ Reachable ts outcome.2 ∧
      p + n ≤ outcome.2 := by
  -- The tokens left get fewer with every iteration.
  induction hk : limit ts - p using Nat.strong_induction_on generalizing s p with
  | _ k ih =>
    cases hg : l.goesOn s (tokenAt ts p) with
    | false => exact ⟨0, (.ok s, p), .leave hg, hp, Nat.le_refl _⟩
    | true =>
      obtain ⟨r, q, hr, hq, hle, hgain⟩ := hl s p hp
      cases r with
      | error e => exact ⟨0, (.error e, q), .stop hg hr, hq, hle⟩
      | ok next =>
        have hpq : p + 1 ≤ q := hgain rfl
        have hqlim : q ≤ limit ts := reachable_iff.mp hq
        obtain ⟨n, outcome, hends, ho, hn⟩ := ih (limit ts - q) (by omega) next hq rfl
        exact ⟨n + 1, outcome, .again hg hr hends, ho, by omega⟩

theorem gains_loop {l : Loop σ} (hl : ∀ s, Gains ts 1 (l.body s)) (s : σ) :
    Gains ts 0 (loop l s) := by
  intro p hp
  obtain ⟨n, ⟨r, q⟩, hends, hq, hn⟩ := exists_ends hl s hp
  have hpq : p + n ≤ q := hn
  exact ⟨r, q, run_loop_eq_some_iff.mpr ⟨n, hends⟩, hq, by omega, fun _ => by omega⟩

/-! ### The rules -/

theorem gains_annotate (before : List Annotation) : Gains ts 1 (annotate before) := by
  refine gains_advance.before fun sign => ?_
  refine (gains_expectName _).then fun label => ?_
  refine (gains_tryMark _).then fun valued => gains_ite ?_ (gains_pure _)
  refine gains_literal.weaken.then fun value => ?_
  exact (gains_expectMark _ _).weaken.then fun closing => gains_pure _

theorem gains_annotations : Gains ts 0 annotations := gains_loop gains_annotate []

theorem gains_rejectDangling (as : List Annotation) : Gains ts 0 (rejectDangling as) := by
  unfold rejectDangling
  cases as.getLast? with
  | none => exact gains_pure _
  | some last => exact gains_peek.then fun t => gains_ite (gains_throw _ _) (gains_pure _)

theorem gains_front : Gains ts 0 front :=
  gains_annotations.then fun as => (gains_rejectDangling as).then fun _ => gains_pure _

theorem gains_modifier : Gains ts 0 modifier := by
  refine gains_peek.then fun t => ?_
  cases t.visibility? with
  | none => exact gains_pure _
  | some v => exact gains_advance.then fun _ => gains_pure _

theorem gains_parameter (before : ParameterState) : Gains ts 1 (parameter before) := by
  refine (gains_expectName _).then fun type => ?_
  refine (gains_expectName _).weaken.then fun name => ?_
  exact (gains_tryMark _).then fun more => gains_pure _

theorem gains_parameters : Gains ts 0 parameters := by
  refine gains_peek.then fun t => gains_ite (gains_pure _) ?_
  exact (gains_loop gains_parameter _).then fun all => gains_pure _

theorem gains_methodRest (h : MemberHeading) (name : String) (span : Span) :
    Gains ts 0 (methodRest h name span) := by
  unfold methodRest
  cases h.modifier with
  | some modifier => exact gains_throw _ _
  | none =>
    refine gains_advance.then fun _ => gains_parameters.then fun parameters => ?_
    refine (gains_expectMark _ _).weaken.then fun _ => ?_
    exact (gains_expectMark _ _).weaken.then fun _ => gains_pure _

theorem gains_memberRest (h : MemberHeading) (name : String) (span : Span) :
    Gains ts 0 (memberRest h name span) := by
  refine gains_peek.then fun t => gains_ite (gains_methodRest h name span) ?_
  exact (gains_tryMark _).then fun closed => gains_ite (gains_pure _) (gains_throw _ _)

/-- A member has a type, so it gains a token. -/
theorem gains_memberHeading : Gains ts 1 memberHeading := by
  refine gains_front.before fun as => gains_modifier.before fun modifier => ?_
  exact (gains_expectName _).then fun type => gains_pure _

theorem gains_member : Gains ts 1 member :=
  gains_memberHeading.then fun _ =>
    (gains_expectName _).weaken.then fun _ => gains_memberRest _ _ _

theorem gains_add (clash : Option ParseError) (before : List α) (a : α) :
    Gains ts 0 (add clash before a) := by
  cases clash with
  | none => exact gains_pure _
  | some error => exact gains_throw _ _

theorem gains_nextMember (before : List Member) : Gains ts 1 (nextMember before) := by
  refine gains_peek.before fun t => gains_ite ?_ (gains_throw _ _)
  exact gains_member.then fun m => gains_add _ before m

theorem gains_blockStart (keyword : Expected) (word : Keyword) (name : Expected) :
    Gains ts 1 (blockStart keyword word name) := by
  refine (gains_expectWord _ _).then fun _ => (gains_expectName _).weaken.then fun label => ?_
  exact (gains_expectMark _ _).weaken.then fun _ => gains_pure _

/-- An interface has a keyword, so it gains a token. -/
theorem gains_interfaceDecl : Gains ts 1 interfaceDecl := by
  refine gains_front.before fun as => ?_
  refine (gains_blockStart _ _ _).then fun label => ?_
  refine (gains_loop gains_nextMember []).then fun members => ?_
  exact (gains_expectMark _ _).weaken.then fun _ => gains_pure _

theorem gains_nextInterface (before : List Interface) : Gains ts 1 (nextInterface before) := by
  refine gains_peek.before fun t => gains_ite ?_ (gains_throw _ _)
  exact gains_interfaceDecl.then fun i => gains_add _ before i

/-- A module has a keyword, so it gains a token. -/
theorem gains_moduleDecl (as : List Annotation) : Gains ts 1 (moduleDecl as) := by
  refine (gains_blockStart _ _ _).then fun label => ?_
  refine (gains_loop gains_nextInterface []).then fun interfaces => ?_
  exact (gains_expectMark _ _).weaken.then fun closing => gains_pure _

theorem gains_nextModule (before : List Module) : Gains ts 1 (nextModule before) := by
  refine gains_peek.before fun t => gains_ite ?_ (gains_throw _ _)
  refine gains_front.before fun as => ?_
  exact (gains_moduleDecl as).then fun m => gains_add _ before _

theorem gains_program : Gains ts 0 program := gains_loop gains_nextModule []

/-- **The descent returns on every list of tokens**, with the result that the list is read into. -/
theorem run_program (ts : List Token) :
    ∃ q, Reachable ts q ∧ run program ts 0 = .some (parse ts, q) := by
  obtain ⟨r, q, hr, hq, -, -⟩ := gains_program 0 (.start : Reachable ts 0)
  have hlead := leads_program ts r q hr
  have hparse : parse ts = r := by
    cases r with
    | ok modules => exact hlead
    | error e => exact hlead
  exact ⟨q, hq, hparse ▸ hr⟩

/-! ### Progress as a whole -/

/-- From every position that can be reached a loop ends, after at most as many iterations as there
are tokens left. -/
def EndsInTime (ts : List Token) (l : Loop σ) : Prop :=
  ∀ s p, Reachable ts p → ∃ n outcome, l.Ends ts n s p outcome ∧ n ≤ limit ts - p ∧
    Reachable ts outcome.2 ∧ run (loop l s) ts p = .some outcome

theorem endsInTime_of_gains {l : Loop σ} (hl : ∀ s, Gains ts 1 (l.body s)) : EndsInTime ts l := by
  intro s p hp
  obtain ⟨n, outcome, hends, ho, hn⟩ := exists_ends hl s hp
  have hlim : outcome.2 ≤ limit ts := reachable_iff.mp ho
  exact ⟨n, outcome, hends, by omega, ho, run_loop_eq_some_iff.mpr ⟨n, hends⟩⟩

/-- What it means that the descent makes progress and stops. -/
structure Progress (ts : List Token) : Prop where
  /-- The position never lies behind the first end token. -/
  within : ∀ p, Reachable ts p → p ≤ limit ts
  /-- An end token is never passed. -/
  stays : ∀ p, (tokenAt ts p).isEnd = true → run advance ts p = .some (.ok (tokenAt ts p), p)
  /-- Behind the last token there is always one more end token to look at. -/
  padded : ∀ p, ts.length ≤ p → run peek ts p = .some (.ok .implicitEnd, p)
  /-- The rules for declarations gain a token, and so do the iterations of the loops inside them. -/
  moduleDecl : ∀ as, Gains ts 1 (moduleDecl as)
  interfaceDecl : Gains ts 1 interfaceDecl
  member : Gains ts 1 member
  annotate : ∀ before, Gains ts 1 (annotate before)
  parameter : ∀ before, Gains ts 1 (parameter before)
  /-- All five loops end. -/
  annotationLoop : EndsInTime ts annotationLoop
  parameterLoop : EndsInTime ts parameterLoop
  memberLoop : EndsInTime ts memberLoop
  interfaceLoop : EndsInTime ts interfaceLoop
  moduleLoop : EndsInTime ts moduleLoop
  /-- So does the whole, with the result of the list. -/
  returns : ∃ q, Reachable ts q ∧ run program ts 0 = .some (parse ts, q)

/-- **The descent always makes progress and stops.** -/
theorem descent_progresses (ts : List Token) : Progress ts where
  within _ := reachable_iff.mp
  stays p he := by rw [run_advance, if_pos he]
  padded p hp := by rw [run_peek, tokenAt, List.getElem?_eq_none hp, Option.getD_none]
  moduleDecl := gains_moduleDecl
  interfaceDecl := gains_interfaceDecl
  member := gains_member
  annotate := gains_annotate
  parameter := gains_parameter
  annotationLoop := endsInTime_of_gains gains_annotate
  parameterLoop := endsInTime_of_gains gains_parameter
  memberLoop := endsInTime_of_gains gains_nextMember
  interfaceLoop := endsInTime_of_gains gains_nextInterface
  moduleLoop := endsInTime_of_gains gains_nextModule
  returns := run_program ts

/-- A module that is never closed: the loop over its interfaces has no token left, completes no
iteration and stops, and so does the whole. -/
theorem descent_progresses_open :
    let ts : List Token := [⟨.keyword .module, ⟨0, 6, 1, 1⟩⟩, ⟨.identifier "M", ⟨7, 8, 1, 8⟩⟩,
      ⟨.punctuation .openBrace, ⟨9, 10, 1, 10⟩⟩]
    Reachable ts 3 ∧ (∃ outcome, interfaceLoop.Ends ts 0 [] 3 outcome) ∧
      ∃ q ≤ 3, run program ts 0 =
        .some (.error (.unexpectedToken .interfaceOrClose .implicitEnd), q) := by
  intro ts
  have hlim : limit ts = 3 := by decide
  have hp : Reachable ts 3 := reachable_iff.mpr (by omega)
  have h := descent_progresses ts
  obtain ⟨n, outcome, hends, hn, -, -⟩ := h.interfaceLoop [] 3 hp
  obtain ⟨q, hq, hrun⟩ := h.returns
  have hzero : n = 0 := by omega
  subst hzero
  have hle : q ≤ limit ts := h.within q hq
  exact ⟨hp, ⟨outcome, hends⟩, q, by omega, hrun⟩

end Idl.Descent
