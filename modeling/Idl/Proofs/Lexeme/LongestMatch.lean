import Idl.Proofs.Lexeme.Class
import Idl.Scan
import Mathlib.Data.List.Forall2

/-! # Longest match

A text is cut by longest match if each lexeme is the longest text of any class at its place. The
cut of a text is this one, and it reaches the end exactly if there is one.

* `first_eq_ok_iff`: the lexeme at the front of a text is the longest text of a class there.
* `cut_eq_iff`: the cut of a text is its cut by longest match.
* `Scan.holds_of_longestCut`: the tokens and comments of a text stand where the lexemes stand that
  are not blank, in order and apart from each other, and no other character is left out but
  blanks. -/

namespace Idl

namespace Lexeme

/-- A lexeme in front of some characters that no text of a class there is longer than. -/
structure Longest (l : Lexeme) (rest : List Char) : Prop where
  spelled : Spelled l.kind l.text
  longest : ∀ kind text, Spelled kind text → text <+: l.text ++ rest →
    text.length ≤ l.text.length

/-- **A text cut from left to right into longest lexemes.** -/
inductive LongestCut : List Char → List Lexeme → Prop where
  | nil : LongestCut [] []
  | cons {l : Lexeme} {rest : List Char} {ls : List Lexeme} (first : Longest l rest)
      (later : LongestCut rest ls) : LongestCut (l.text ++ rest) (l :: ls)

/-- **The lexeme at the front of a text is the longest text of a class there.** -/
theorem first_eq_ok_iff {c : Char} {input rest : List Char} {l : Lexeme} :
    first c input = .ok (l, rest) ↔ c :: input = l.text ++ rest ∧ Longest l rest := by
  have hlongest : ∀ {l : Lexeme} {rest : List Char}, first c input = .ok (l, rest) →
      ∀ kind text, Spelled kind text → text <+: c :: input → text.length ≤ l.text.length := by
    rintro l rest h kind text hs ⟨after, hafter⟩
    obtain ⟨d, ds, rfl⟩ := List.exists_cons_of_ne_nil (spelled_ne_nil hs)
    rw [List.cons_append, List.cons.injEq] at hafter
    obtain ⟨rfl, rfl⟩ := hafter
    obtain ⟨l', r', h', hle⟩ := exists_first_of_spelled hs after
    rw [h] at h'
    cases h'
    exact hle
  constructor
  · intro h
    have happ := (eq_append_of_first h).1
    refine ⟨happ, spelled_of_first h, fun kind text hs hp => ?_⟩
    rw [← happ] at hp
    exact hlongest h kind text hs hp
  · rintro ⟨happ, hl⟩
    obtain ⟨d, ds, hd⟩ := List.exists_cons_of_ne_nil (spelled_ne_nil hl.spelled)
    have hs := hl.spelled
    rw [hd, List.cons_append, List.cons.injEq] at happ
    obtain ⟨rfl, rfl⟩ := happ
    rw [hd] at hs
    obtain ⟨⟨kind, text⟩, r, h, hle⟩ := exists_first_of_spelled hs rest
    -- The lexeme found is no longer than `l`, so it has the same text, and this fixes its kind.
    have hfound := (eq_append_of_first h).1
    have hge := hl.longest kind text (spelled_of_first h)
      ⟨r, by rw [hd, List.cons_append]; exact hfound.symm⟩
    rw [hd] at hge
    rw [← List.cons_append] at hfound
    obtain ⟨rfl, rfl⟩ := List.append_inj hfound (Nat.le_antisymm hle hge)
    obtain rfl := kind_eq_of_spelled (spelled_of_first h) hs
    rw [h, ← hd]

theorem longestCut_of_cut {text : List Char} {ls : List Lexeme} (h : cut text = (ls, none)) :
    LongestCut text ls := by
  induction ls generalizing text with
  | nil =>
    cases text with
    | nil => exact .nil
    | cons c input =>
      cases hf : first c input with
      | ok p => rw [cut_cons_ok hf] at h; cases h
      | error stuck => rw [cut_cons_error hf] at h; cases h
  | cons l ls ih =>
    cases text with
    | nil => rw [cut_nil] at h; cases h
    | cons c input =>
      cases hf : first c input with
      | ok p =>
        obtain ⟨l', rest⟩ := p
        rw [cut_cons_ok hf] at h
        obtain ⟨hl, hn⟩ := Prod.mk.inj h
        obtain ⟨rfl, hls⟩ := List.cons.inj hl
        obtain ⟨happ, hlong⟩ := first_eq_ok_iff.mp hf
        rw [happ]
        exact .cons hlong (ih (Prod.ext hls hn))
      | error stuck => rw [cut_cons_error hf] at h; cases h

/-- **The cut of a text is its cut by longest match.** -/
theorem cut_eq_iff {text : List Char} {ls : List Lexeme} :
    cut text = (ls, none) ↔ LongestCut text ls := by
  refine ⟨longestCut_of_cut, fun h => ?_⟩
  induction h with
  | nil => exact cut_nil
  | @cons l rest ls hl _ ih =>
    obtain ⟨c, cs, hc⟩ := List.exists_cons_of_ne_nil (spelled_ne_nil hl.spelled)
    have hf : first c (cs ++ rest) = .ok (l, rest) :=
      first_eq_ok_iff.mpr ⟨by rw [hc, List.cons_append], hl⟩
    rw [hc, List.cons_append, cut_cons_ok hf, ih]

theorem LongestCut.texts_eq {text : List Char} {ls : List Lexeme} (h : LongestCut text ls) :
    texts ls = text := by
  induction h with
  | nil => rfl
  | cons _ _ ih => rw [texts_cons, ih]

theorem LongestCut.spelled {text : List Char} {ls : List Lexeme} (h : LongestCut text ls) :
    ∀ l ∈ ls, Spelled l.kind l.text := by
  induction h with
  | nil => simp
  | cons hl _ ih => exact List.forall_mem_cons.mpr ⟨hl.spelled, ih⟩

/-! ### Where lexemes stand -/

/-- Lexemes from a position on, each with its span. -/
def sited (p : Position) : List Lexeme → List (Lexeme × Span)
  | [] => []
  | l :: later => (l, .between p (p.after l.text)) :: sited (p.after l.text) later

theorem map_fst_sited (p : Position) (ls : List Lexeme) : (sited p ls).map Prod.fst = ls := by
  induction ls generalizing p with
  | nil => rfl
  | cons l ls ih => rw [sited, List.map_cons, ih]

theorem placed_eq (p : Position) (ls : List Lexeme) :
    placed p ls = (sited p ls).map fun x => (x.1.kind, x.2) := by
  induction ls generalizing p with
  | nil => rfl
  | cons l ls ih => rw [placed_cons, sited, List.map_cons, ih]

end Lexeme

theorem Position.offset_lt_after {p : Position} {text : List Char} (h : text ≠ []) :
    p.offset < (p.after text).offset := by
  obtain ⟨c, cs, rfl⟩ := List.exists_cons_of_ne_nil h
  have hle := (p.next c).offset_le_after cs
  have hpos := c.utf8Size_pos
  rw [Position.offset_next] at hle
  rw [Position.after_cons]
  omega

/-- A span that holds exactly the given characters of a text. -/
def Span.Covers (source : List Char) (span : Span) (text : List Char) : Prop :=
  ∃ before behind, source = before ++ text ++ behind ∧
    span = .between (Position.start.after before) (Position.start.after (before ++ text))

namespace Lexeme

/-- A lexeme stands behind those before it. -/
theorem covers_of_mem_sited {before : List Char} {ls : List Lexeme} {x : Lexeme × Span}
    (h : x ∈ sited (Position.start.after before) ls) :
    x.2.Covers (before ++ texts ls) x.1.text := by
  induction ls generalizing before with
  | nil => cases h
  | cons l ls ih =>
    rcases List.mem_cons.mp h with rfl | hm
    · exact ⟨before, texts ls, by simp, by simp⟩
    · rw [← Position.after_append] at hm
      simpa using ih hm

theorem start_le_of_mem_sited {p : Position} {ls : List Lexeme} {x : Lexeme × Span}
    (h : x ∈ sited p ls) : p.offset ≤ x.2.start := by
  induction ls generalizing p with
  | nil => cases h
  | cons l ls ih =>
    rcases List.mem_cons.mp h with rfl | hm
    · exact Nat.le_refl _
    · exact Nat.le_trans (p.offset_le_after l.text) (ih hm)

/-- Lexemes stand one behind the other. -/
theorem pairwise_sited (p : Position) (ls : List Lexeme) :
    (sited p ls).Pairwise fun x y => x.2.stop ≤ y.2.start := by
  induction ls generalizing p with
  | nil => exact .nil
  | cons l ls ih => exact .cons (fun y hy => start_le_of_mem_sited hy) (ih _)

theorem start_lt_stop_of_mem_sited {p : Position} {ls : List Lexeme}
    (hs : ∀ l ∈ ls, Spelled l.kind l.text) {x : Lexeme × Span} (h : x ∈ sited p ls) :
    x.2.start < x.2.stop := by
  induction ls generalizing p with
  | nil => cases h
  | cons l ls ih =>
    obtain ⟨hl, hs⟩ := List.forall_mem_cons.mp hs
    rcases List.mem_cons.mp h with rfl | hm
    · exact Position.offset_lt_after (spelled_ne_nil hl)
    · exact ih hs hm

/-- Whether a lexeme counts for the tokens and comments of a text. -/
def isVisible (l : Lexeme) : Bool := l.kind ≠ .blank

/-- **No character is left out but blanks:** every other one stands in a visible lexeme. -/
theorem blank_or_exists_sited {p : Position} {ls : List Lexeme}
    (hs : ∀ l ∈ ls, Spelled l.kind l.text) {before behind : List Char} {c : Char}
    (h : texts ls = before ++ c :: behind) :
    isBlank c = true ∨ ∃ x ∈ sited p ls, isVisible x.1 = true ∧
      x.2.start ≤ (p.after before).offset ∧ (p.after before).offset < x.2.stop := by
  induction ls generalizing p before with
  | nil => simp at h
  | cons l ls ih =>
    obtain ⟨hl, hs⟩ := List.forall_mem_cons.mp hs
    rw [texts_cons] at h
    rcases List.append_eq_append_iff.mp h with ⟨more, hb, hmore⟩ | ⟨more, hl', hmore⟩
    · -- The character stands behind the first lexeme.
      subst hb
      rcases ih (p := p.after l.text) hs hmore with hc | ⟨x, hx, hv⟩
      · exact .inl hc
      · exact .inr ⟨x, List.mem_cons_of_mem _ hx, by simpa using hv⟩
    · cases more with
      | nil =>
        rw [List.append_nil] at hl'
        subst hl'
        have htexts : texts ls = [] ++ c :: behind := hmore.symm
        rcases ih (p := p.after l.text) hs htexts with hc | ⟨x, hx, hv⟩
        · exact .inl hc
        · exact .inr ⟨x, List.mem_cons_of_mem _ hx, hv⟩
      | cons d more =>
        -- The character stands in the first lexeme.
        rw [List.cons_append, List.cons.injEq] at hmore
        obtain ⟨rfl, -⟩ := hmore
        cases hv : isVisible l with
        | true =>
          refine .inr ⟨_, List.mem_cons_self, hv, p.offset_le_after before, ?_⟩
          show (p.after before).offset < (p.after l.text).offset
          rw [hl', Position.after_append]
          exact Position.offset_lt_after (by simp)
        | false =>
          have hk : l.kind = .blank := by simpa [isVisible] using hv
          rw [hk, hl'] at hl
          generalize ht : before ++ c :: more = text at hl
          cases hl with
          | blank hb =>
            obtain ⟨rfl, he⟩ := List.append_eq_singleton_iff.mp ht |>.resolve_right (by simp)
            cases he
            exact .inl hb

end Lexeme

namespace Scan

open Lexeme

/-! ### Tokens and comments -/

/-- The spans of the tokens but the last, and of the comments, merged by where they start. -/
def spans (scan : Scan) : List Span :=
  List.merge (scan.tokens.dropLast.map Token.span) scan.comments fun a b => a.start ≤ b.start

/-- The token that a lexeme with its span is, if it is one. -/
def siteToken? (x : Lexeme × Span) : Option Token := token? (x.1.kind, x.2)

/-- The span of a lexeme that is a comment. -/
def siteComment? (x : Lexeme × Span) : Option Span := comment? (x.1.kind, x.2)

theorem tokens_ofLexemes (ls : List Lexeme) : (ofLexemes ls).tokens =
    (sited .start ls).filterMap siteToken? ++
      [⟨.endOfInput, .point (Position.start.after (texts ls))⟩] := by
  simp only [ofLexemes, placed_eq, List.filterMap_map]
  rfl

theorem comments_ofLexemes (ls : List Lexeme) :
    (ofLexemes ls).comments = (sited .start ls).filterMap siteComment? := by
  simp only [ofLexemes, placed_eq, List.filterMap_map]
  rfl

theorem siteToken?_eq_some {x : Lexeme × Span} {t : Token} (h : siteToken? x = some t) :
    x.1.kind = .token t.kind ∧ t.span = x.2 := by
  obtain ⟨⟨kind, text⟩, span⟩ := x
  cases kind <;> cases h
  exact ⟨rfl, rfl⟩

theorem siteComment?_eq_some {x : Lexeme × Span} {span : Span} (h : siteComment? x = some span) :
    x.1.kind = .comment ∧ span = x.2 := by
  obtain ⟨⟨kind, text⟩, span'⟩ := x
  cases kind <;> cases h
  exact ⟨rfl, rfl⟩

theorem merge_cons_left {a : Span} {as bs : List Span} (h : ∀ b ∈ bs, a.start ≤ b.start) :
    List.merge (a :: as) bs (fun a b => a.start ≤ b.start) =
      a :: List.merge as bs fun a b => a.start ≤ b.start := by
  cases bs with
  | nil => simp
  | cons b bs => exact List.cons_merge_cons_pos _ _ _ (by simpa using h b (by simp))

theorem merge_cons_right {b : Span} {as bs : List Span} (h : ∀ a ∈ as, b.start < a.start) :
    List.merge as (b :: bs) (fun a b => a.start ≤ b.start) =
      b :: List.merge as bs fun a b => a.start ≤ b.start := by
  cases as with
  | nil => simp
  | cons a as =>
    have ha := h a (by simp)
    exact List.cons_merge_cons_neg _ _ _ (by simpa using ha)

/-- Tokens and comments, merged by where they start, are the visible lexemes in their order. -/
theorem merge_sites {xs : List (Lexeme × Span)}
    (h : xs.Pairwise fun x y => x.2.start < y.2.start) :
    List.merge ((xs.filterMap siteToken?).map Token.span) (xs.filterMap siteComment?)
      (fun a b => a.start ≤ b.start) = (xs.filter fun x => isVisible x.1).map Prod.snd := by
  induction h with
  | nil => simp
  | @cons x xs hx _ ih =>
    have htokens : ∀ s ∈ (xs.filterMap siteToken?).map Token.span, x.2.start < s.start := by
      intro s hs
      obtain ⟨t, ht, rfl⟩ := List.mem_map.mp hs
      obtain ⟨y, hy, hyt⟩ := List.mem_filterMap.mp ht
      rw [(siteToken?_eq_some hyt).2]
      exact hx y hy
    have hcomments : ∀ s ∈ xs.filterMap siteComment?, x.2.start ≤ s.start := by
      intro s hs
      obtain ⟨y, hy, hys⟩ := List.mem_filterMap.mp hs
      rw [(siteComment?_eq_some hys).2]
      exact Nat.le_of_lt (hx y hy)
    obtain ⟨⟨kind, text⟩, span⟩ := x
    cases kind with
    | blank => exact ih
    | comment => exact (merge_cons_right htokens).trans (congrArg _ ih)
    | token kind => exact (merge_cons_left hcomments).trans (congrArg _ ih)

/-- **A scan holds the visible lexemes of a text:** where they stand, in order and apart from each
other, what each token and comment is by its own characters, and an end token behind the text. -/
structure Holds (scan : Scan) (source : List Char) (ls : List Lexeme) : Prop where
  visible : List.Forall₂ (fun l span => Span.Covers source span l.text)
    (ls.filter isVisible) scan.spans
  increasing : scan.spans.Pairwise fun a b => a.stop ≤ b.start
  nonempty : ∀ span ∈ scan.spans, span.start < span.stop
  blanks : ∀ before c behind, source = before ++ c :: behind → isBlank c = true ∨
    ∃ span ∈ scan.spans, span.start ≤ (Position.start.after before).offset ∧
      (Position.start.after before).offset < span.stop
  tokens : ∀ t ∈ scan.tokens.dropLast, ∃ text, t.span.Covers source text ∧
    Spelled (.token t.kind) text
  comments : ∀ span ∈ scan.comments, ∃ text, span.Covers source text ∧ Spelled .comment text
  finish : scan.tokens.getLast? = some ⟨.endOfInput, .point (Position.start.after source)⟩

section Holds
variable {source : List Char} {ls : List Lexeme} (h : LongestCut source ls)
include h

theorem spans_ofLexemes : (ofLexemes ls).spans =
    ((sited .start ls).filter fun x => isVisible x.1).map Prod.snd := by
  have hlt : (sited .start ls).Pairwise fun x y => x.2.start < y.2.start := by
    refine (pairwise_sited .start ls).imp_of_mem fun hx _ hxy => ?_
    exact Nat.lt_of_lt_of_le (start_lt_stop_of_mem_sited h.spelled hx) hxy
  unfold spans
  rw [tokens_ofLexemes, comments_ofLexemes, List.dropLast_concat, merge_sites hlt]

theorem covers_of_mem {x : Lexeme × Span} (hx : x ∈ sited .start ls) :
    x.2.Covers source x.1.text := by
  have hc : x.2.Covers ([] ++ texts ls) x.1.text := covers_of_mem_sited hx
  rwa [List.nil_append, h.texts_eq] at hc

theorem spelled_of_mem {x : Lexeme × Span} (hx : x ∈ sited .start ls) :
    Spelled x.1.kind x.1.text := by
  have hm : x.1 ∈ (sited .start ls).map Prod.fst := List.mem_map_of_mem hx
  rw [map_fst_sited] at hm
  exact h.spelled _ hm

/-- **The scan of a cut by longest match holds its visible lexemes.** -/
theorem holds_of_longestCut : (ofLexemes ls).Holds source ls where
  visible := by
    have hf : ls.filter isVisible =
        ((sited .start ls).filter fun x => isVisible x.1).map Prod.fst := by
      conv_lhs => rw [← map_fst_sited .start ls, List.filter_map]
      rfl
    rw [spans_ofLexemes h, hf, List.forall₂_map_left_iff, List.forall₂_map_right_iff,
      List.forall₂_same]
    exact fun x hx => covers_of_mem h (List.mem_filter.mp hx).1
  increasing := by
    rw [spans_ofLexemes h]
    exact List.pairwise_map.mpr ((pairwise_sited .start ls).filter _)
  nonempty := by
    rw [spans_ofLexemes h]
    intro span hs
    obtain ⟨x, hx, rfl⟩ := List.mem_map.mp hs
    exact start_lt_stop_of_mem_sited h.spelled (List.mem_filter.mp hx).1
  blanks := by
    intro before c behind hsource
    rw [← h.texts_eq] at hsource
    rw [spans_ofLexemes h]
    rcases blank_or_exists_sited (p := .start) h.spelled hsource with hb | ⟨x, hx, hv, hin⟩
    · exact .inl hb
    · exact .inr ⟨x.2, List.mem_map_of_mem (List.mem_filter.mpr ⟨hx, hv⟩), hin⟩
  tokens := by
    rw [tokens_ofLexemes, List.dropLast_concat]
    intro t ht
    obtain ⟨x, hx, hxt⟩ := List.mem_filterMap.mp ht
    obtain ⟨hk, hs⟩ := siteToken?_eq_some hxt
    have hspelled := spelled_of_mem h hx
    rw [hk] at hspelled
    exact ⟨x.1.text, by rw [hs]; exact covers_of_mem h hx, hspelled⟩
  comments := by
    rw [comments_ofLexemes]
    intro span hspan
    obtain ⟨x, hx, hxs⟩ := List.mem_filterMap.mp hspan
    obtain ⟨hk, rfl⟩ := siteComment?_eq_some hxs
    have hspelled := spelled_of_mem h hx
    rw [hk] at hspelled
    exact ⟨x.1.text, covers_of_mem h hx, hspelled⟩
  finish := by
    rw [tokens_ofLexemes, List.getLast?_concat, h.texts_eq]

end Holds

theorem ofText_eq_ok_iff {source : String} {scan : Scan} :
    ofText source = .ok scan ↔ ∃ ls, LongestCut source.toList ls ∧ scan = ofLexemes ls := by
  unfold ofText
  generalize hc : cut source.toList = r
  obtain ⟨ls, stuck⟩ := r
  cases stuck with
  | none =>
    constructor
    · intro h
      cases h
      exact ⟨ls, cut_eq_iff.mp hc, rfl⟩
    · rintro ⟨ls', hl, rfl⟩
      rw [cut_eq_iff.mpr hl] at hc
      cases hc
      rfl
  | some stuck =>
    constructor
    · intro h; cases h
    · rintro ⟨ls', hl, -⟩
      rw [cut_eq_iff.mpr hl] at hc
      cases hc

/-- **A text is scanned exactly if it can be cut by longest match.** The cut is then the only one,
and the scan holds its visible lexemes. -/
theorem ofText_longest_match (source : String) :
    ((∃ scan, ofText source = .ok scan) ↔ ∃ ls, LongestCut source.toList ls) ∧
      ∀ scan, ofText source = .ok scan → ∃ ls, LongestCut source.toList ls ∧
        (∀ ls', LongestCut source.toList ls' → ls' = ls) ∧ scan.Holds source.toList ls := by
  constructor
  · constructor
    · rintro ⟨scan, hs⟩
      obtain ⟨ls, hl, -⟩ := ofText_eq_ok_iff.mp hs
      exact ⟨ls, hl⟩
    · rintro ⟨ls, hl⟩
      exact ⟨ofLexemes ls, ofText_eq_ok_iff.mpr ⟨ls, hl, rfl⟩⟩
  · intro scan hs
    obtain ⟨ls, hl, rfl⟩ := ofText_eq_ok_iff.mp hs
    refine ⟨ls, hl, fun ls' hl' => ?_, holds_of_longestCut hl⟩
    have hc := cut_eq_iff.mpr hl'
    rw [cut_eq_iff.mpr hl] at hc
    cases hc
    rfl

end Scan

end Idl
