import Idl.Proofs.Descent.Rules
import Idl.Proofs.Draft.Names

/-! # What the descent leads to

While the descent runs, a draft keeps pace with it: what the tokens from the present position on
make of that draft (`Draft.readFrom`) is at every moment the result of the whole list. So an error
of the descent has to be that result, and behind a computation that succeeds stands the next draft.

* `Leads`: what a computation comes to, when the result of the list is the given one; `Leads.bind`,
  `leads_loop`: how this composes.
* `leads_take`: a draft takes the token that the descent moves past; `leads_refusal`: it refuses the
  token at which the descent fails.
* `leads_expect`: a draft that asks for a token keeps pace with a computation that does. -/

namespace Idl

open Descent

namespace Draft

theorem isEnd_of_advance {d next : Draft} {t : Token} (h : d.advance t = some next) :
    t.isEnd = false := by
  refine Bool.eq_false_iff.mpr fun he => ?_
  rw [advance_end d he] at h
  cases h

/-- The program that the tokens from a position on make of a draft. -/
def readFrom (d : Draft) (ts : List Token) (p : Nat) : Except ParseError (List Module) :=
  d.read (ts.drop p)

variable {d next : Draft} {ts : List Token} {p : Nat}

theorem drop_eq_tokenAt_cons (ht : (tokenAt ts p).isEnd = false) :
    ts.drop p = tokenAt ts p :: ts.drop (p + 1) := by
  have hp : p < ts.length := by
    by_contra hp
    rw [tokenAt, List.getElem?_eq_none (by omega)] at ht
    cases ht
  rw [tokenAt, List.getElem?_eq_getElem hp, Option.getD_some, List.drop_eq_getElem_cons hp]

theorem readFrom_end (d : Draft) (he : (tokenAt ts p).isEnd = true) :
    d.readFrom ts p = d.finish (tokenAt ts p) := by
  by_cases hp : p < ts.length
  · have ht : tokenAt ts p = ts[p] := by
      rw [tokenAt, List.getElem?_eq_getElem hp, Option.getD_some]
    rw [readFrom, List.drop_eq_getElem_cons hp, ← ht, read_end d he]
  · rw [readFrom, tokenAt, List.drop_eq_nil_of_le (by omega), List.getElem?_eq_none (by omega),
      read_nil, Option.getD_none]

theorem readFrom_advance (hc : d.clash (tokenAt ts p) = none)
    (ha : d.advance (tokenAt ts p) = some next) : d.readFrom ts p = next.readFrom ts (p + 1) := by
  unfold readFrom
  rw [drop_eq_tokenAt_cons (isEnd_of_advance ha), read_cons (step_eq_ok_iff.mpr ⟨hc, ha⟩)]

theorem readFrom_of_error {e : ParseError} (ht : (tokenAt ts p).isEnd = false)
    (h : d.step (tokenAt ts p) = .error e) : d.readFrom ts p = .error e := by
  rw [readFrom, drop_eq_tokenAt_cons ht, read_of_error ht h]

theorem readFrom_clash {e : ParseError} (hc : d.clash (tokenAt ts p) = some e) :
    d.readFrom ts p = .error e := by
  obtain ⟨next, ha⟩ := Option.isSome_iff_exists.mp (isSome_advance_of_clash hc)
  exact readFrom_of_error (isEnd_of_advance ha) (step_of_clash hc)

/-- A token that cannot come next is refused, at the end of the input too unless the draft is a
program. -/
theorem readFrom_refusal (ha : d.advance (tokenAt ts p) = none)
    (hd : (tokenAt ts p).isEnd = true → ∀ modules, d ≠ .ready (.program modules) []) :
    d.readFrom ts p = .error (d.refusal (tokenAt ts p)) := by
  by_cases he : (tokenAt ts p).isEnd = true
  · rw [readFrom_end d he]
    unfold finish
    split
    · next modules => exact absurd rfl (hd he modules)
    · rfl
  · exact readFrom_of_error (Bool.eq_false_iff.mpr he) (step_of_refused ha)

end Draft

namespace Descent

variable {α β σ : Type} {ts : List Token} {result : Except ParseError (List Module)} {p : Nat}

/-! ### Computations -/

/-- **What a computation leads to** when the list of tokens has the given result: an error is that
result, and otherwise `post` holds of what it gives and of the position where it stops. -/
def Leads (ts : List Token) (result : Except ParseError (List Module)) (p : Nat) (m : Descent α)
    (post : α → Nat → Prop) : Prop :=
  ∀ r q, run m ts p = .some (r, q) →
    match r with
    | .ok a => post a q
    | .error e => result = .error e

theorem leads_pure {post : α → Nat → Prop} {a : α} (h : post a p) :
    Leads ts result p (pure a) post := by
  intro r q hr
  rw [run_pure] at hr
  cases Part.some_inj.mp hr
  exact h

theorem leads_throw {post : α → Nat → Prop} {e : ParseError} (h : result = .error e) :
    Leads ts result p (throw e : Descent α) post := by
  intro r q hr
  rw [run_throw] at hr
  cases Part.some_inj.mp hr
  exact h

theorem Leads.mono {post post' : α → Nat → Prop} {m : Descent α} (h : Leads ts result p m post)
    (hpost : ∀ a q, post a q → post' a q) : Leads ts result p m post' := by
  intro r q hr
  cases r with
  | ok a => exact hpost a q (h _ _ hr)
  | error e => exact h _ _ hr

theorem Leads.bind {mid : α → Nat → Prop} {post : β → Nat → Prop} {m : Descent α}
    {f : α → Descent β} (hm : Leads ts result p m mid)
    (hf : ∀ a q, mid a q → Leads ts result q (f a) post) : Leads ts result p (m >>= f) post := by
  intro r q hr
  rcases run_bind_cases hr with ⟨a, p', ha, hfa⟩ | ⟨e, rfl, he⟩
  · exact hf a p' (hm _ _ ha) r q hfa
  · exact hm _ _ he

theorem leads_peek {post : α → Nat → Prop} {f : Token → Descent α}
    (h : Leads ts result p (f (tokenAt ts p)) post) : Leads ts result p (peek >>= f) post := by
  intro r q hr
  rw [run_bind_ok (run_peek ts p)] at hr
  exact h r q hr

theorem leads_advance {post : α → Nat → Prop} {f : Token → Descent α}
    (ht : (tokenAt ts p).isEnd = false)
    (h : Leads ts result (p + 1) (f (tokenAt ts p)) post) :
    Leads ts result p (advance >>= f) post := by
  intro r q hr
  have ha : run advance ts p = .some (.ok (tokenAt ts p), p + 1) := by
    rw [run_advance, if_neg (by simp [ht])]
  rw [run_bind_ok ha] at hr
  exact h r q hr

/-- A mark that may come next is passed or not. -/
theorem leads_tryMark {post : α → Nat → Prop} {mark : Punctuation} {f : Bool → Descent α}
    (hpass : (tokenAt ts p).isMark mark = true → Leads ts result (p + 1) (f true) post)
    (hstay : (tokenAt ts p).isMark mark = false → Leads ts result p (f false) post) :
    Leads ts result p (tryMark mark >>= f) post := by
  have hmid : Leads ts result p (tryMark mark) fun passed q =>
      (tokenAt ts p).isMark mark = passed ∧ q = if passed then p + 1 else p := by
    refine leads_peek ?_
    cases hm : (tokenAt ts p).isMark mark with
    | false => exact leads_pure ⟨rfl, rfl⟩
    | true =>
      have hend : (tokenAt ts p).isEnd = false := by
        simp [Token.isEnd, Token.isMark_iff.mp hm]
      exact leads_advance hend (leads_pure ⟨rfl, rfl⟩)
  refine hmid.bind ?_
  rintro (_ | _) q ⟨hm, rfl⟩
  · exact hstay hm
  · exact hpass hm

/-- **A loop keeps what its body keeps**, and leaves at a token that does not let it go on. -/
theorem leads_loop {l : Loop σ} {inv : σ → Nat → Prop} (hbody : ∀ s q, inv s q →
      l.goesOn s (tokenAt ts q) = true → Leads ts result q (l.body s) inv)
    {s : σ} (hs : inv s p) : Leads ts result p (loop l s) fun s' q =>
      inv s' q ∧ l.goesOn s' (tokenAt ts q) = false := by
  intro r q hr
  obtain ⟨n, hends⟩ := run_loop_eq_some_iff.mp hr
  -- The induction is on the iterations; the outcome stays the same.
  clear hr
  generalize hout : (r, q) = outcome at hends
  induction hends with
  | leave hg =>
    cases hout
    exact ⟨hs, hg⟩
  | stop hg hb =>
    cases hout
    exact hbody _ _ hs hg _ _ hb
  | again hg hb _ ih => exact ih (hbody _ _ hs hg _ _ hb) hout

/-! ### Drafts that take or refuse a token -/

/-- Behind a token that may complete a declaration: its name is taken, and that is the result, or
the draft goes on. -/
def Completed (ts : List Token) (result : Except ParseError (List Module))
    (clash : Option ParseError) (d : Draft) (p : Nat) : Prop :=
  match clash with
  | some error => result = .error error
  | none => d.readFrom ts p = result

section Taking
variable {d next : Draft} {clash : Option ParseError}

theorem completed_of_advance (hd : d.readFrom ts p = result)
    (hc : d.clash (tokenAt ts p) = clash) (ha : d.advance (tokenAt ts p) = some next) :
    Completed ts result clash next (p + 1) := by
  cases clash with
  | none =>
    rw [Draft.readFrom_advance hc ha] at hd
    exact hd
  | some e =>
    rw [Draft.readFrom_clash hc] at hd
    exact hd.symm

/-- A draft takes the token that is passed. -/
theorem leads_take {post : α → Nat → Prop} {f : Token → Descent α}
    (hd : d.readFrom ts p = result) (hc : d.clash (tokenAt ts p) = clash)
    (ha : d.advance (tokenAt ts p) = some next)
    (h : Completed ts result clash next (p + 1) →
      Leads ts result (p + 1) (f (tokenAt ts p)) post) :
    Leads ts result p (advance >>= f) post :=
  leads_advance (Draft.isEnd_of_advance ha) (h (completed_of_advance hd hc ha))

/-- A draft takes the mark that is asked for, where it does come next. -/
theorem leads_takeMark {post : α → Nat → Prop} {expected : Expected} {mark : Punctuation}
    {f : Token → Descent α} (hm : (tokenAt ts p).isMark mark = true)
    (hd : d.readFrom ts p = result) (hc : d.clash (tokenAt ts p) = clash)
    (ha : d.advance (tokenAt ts p) = some next)
    (h : Completed ts result clash next (p + 1) →
      Leads ts result (p + 1) (f (tokenAt ts p)) post) :
    Leads ts result p (expectMark expected mark >>= f) post := by
  have hmid : Leads ts result p (expectMark expected mark) fun t q =>
      t = tokenAt ts p ∧ q = p + 1 := by
    refine leads_peek ?_
    simp only [Option.guard, hm, if_true]
    exact leads_advance (Draft.isEnd_of_advance ha) (leads_pure ⟨rfl, rfl⟩)
  refine hmid.bind ?_
  rintro t q ⟨rfl, rfl⟩
  exact h (completed_of_advance hd hc ha)

/-- A draft refuses the token that is not passed. -/
theorem leads_refusal {post : α → Nat → Prop} {e : ParseError} (hd : d.readFrom ts p = result)
    (ha : d.advance (tokenAt ts p) = none)
    (hopen : (tokenAt ts p).isEnd = true → ∀ modules, d ≠ .ready (.program modules) [])
    (he : d.refusal (tokenAt ts p) = e) : Leads ts result p (throw e : Descent α) post := by
  refine leads_throw ?_
  rw [← hd, Draft.readFrom_refusal ha hopen, he]

/-- Adding a declaration goes on with the draft behind it, or stops at its name. -/
theorem leads_add (behind : List α → Draft) {before : List α} {a : α}
    (h : Completed ts result clash (behind (before ++ [a])) p) :
    Leads ts result p (add clash before a) fun after q =>
      (behind after).readFrom ts q = result := by
  cases clash with
  | none => exact leads_pure h
  | some error => exact leads_throw h

end Taking

/-! ### Drafts that ask for a token -/

/-- **A draft asks for a token**: the tokens that it takes next are those of some sort. -/
structure Asks (d : Draft) (t : Token) (expected : Expected) (view : Token → Option α)
    (next : α → Draft) : Prop where
  clash : d.clash t = none
  advance : d.advance t = (view t).map next
  refusal : view t = none → d.refusal t = .unexpectedToken expected t

/-- The result is read off a draft that asks for a token. -/
def Asked (ts : List Token) (result : Except ParseError (List Module)) (p : Nat)
    (expected : Expected) (view : Token → Option α) (next : α → Draft) : Prop :=
  ∃ d : Draft, d.readFrom ts p = result ∧ Asks d (tokenAt ts p) expected view next

/-- **A draft that asks for a token keeps pace with a computation that does.** -/
theorem leads_expect {expected : Expected} {view : Token → Option α} {next : α → Draft}
    (h : Asked ts result p expected view next) :
    Leads ts result p (expect expected view) fun a q => (next a).readFrom ts q = result := by
  obtain ⟨d, hd, hask⟩ := h
  refine leads_peek ?_
  cases hv : view (tokenAt ts p) with
  | none =>
    have ha : d.advance (tokenAt ts p) = none := by rw [hask.advance, hv, Option.map_none]
    have hr : d.refusal (tokenAt ts p) = .unexpectedToken expected (tokenAt ts p) :=
      hask.refusal hv
    refine leads_refusal hd ha ?_ hr
    rintro - modules rfl
    cases hr
  | some a =>
    have ha : d.advance (tokenAt ts p) = some (next a) := by rw [hask.advance, hv, Option.map_some]
    exact leads_take hd hask.clash ha fun h => leads_pure h

theorem asks_name {d : Draft} {t : Token} {expected : Expected} (next : String × Span → Draft)
    (hc : d.clash t = none) (ha : d.advance t = t.name?.map fun name => next (name, t.span))
    (hr : d.refusal t = .unexpectedToken expected t) : Asks d t expected label? next := by
  refine ⟨hc, ?_, fun _ => hr⟩
  rw [ha, label?, Option.map_map]
  rfl

theorem asks_guard {d : Draft} {t : Token} {expected : Expected} {test : Token → Bool}
    (next : Token → Draft) (hc : d.clash t = none)
    (ha : d.advance t = if test t then some (next t) else none)
    (hr : test t = false → d.refusal t = .unexpectedToken expected t) :
    Asks d t expected (Option.guard test) next := by
  refine ⟨hc, ?_, fun hv => hr (by simpa [Option.guard] using hv)⟩
  rw [ha, Option.guard]
  split
  · rfl
  · rfl

end Descent

end Idl
