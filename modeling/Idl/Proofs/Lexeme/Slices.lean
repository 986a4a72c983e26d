import Idl.Proofs.Lexeme.Positions

/-! # Parts of a text

What a span marks off is found by its bytes (`Span.slice?`). It is the characters that the span
covers, whatever stands around them (`Span.slice?_of_covers`).

A text can also be cut in part. Some lexemes are cut off its front if each of them is the longest
text of a class at its place, with the rest in view (`Lexeme.LongestBefore`). What follows a lexeme
can only make it longer, so a front that was cut off is cut in the same way if nothing follows it.
Hence lexemes that stand one behind the other in a text make up a text of their own.

* `Lexeme.longestBefore_append`: a cut can be looked at in parts.
* `Lexeme.LongestBefore.longestCut`: a part of a cut is the cut of a part.
* `Lexeme.covers_texts`: where a part of a cut stands.
* `Scan.exists_slice_token`, `Scan.exists_slice_range`: what a token marks off, and what stands from
  one token to a later one. -/

namespace Idl

/-! ### Slices -/

/-- **The text that a span marks off**, if its bytes are one. -/
def Span.slice? (source : String) (s : Span) : Option String :=
  String.fromUTF8? (source.toByteArray.extract s.start s.stop)

theorem Span.slice?_of_covers {source : String} {s : Span} {text : List Char}
    (h : s.Covers source.toList text) : s.slice? source = some (String.ofList text) := by
  obtain ⟨before, behind, hsource, rfl⟩ := h
  have hoffset : ∀ chars, (Position.start.after chars).offset =
      (String.ofList chars).toByteArray.size := by
    intro chars
    have hzero : Position.start.offset = 0 := rfl
    rw [Position.offset_after, hzero, String.size_toByteArray]
    omega
  have hbytes : source.toByteArray = (String.ofList before).toByteArray ++
      ((String.ofList text).toByteArray ++ (String.ofList behind).toByteArray) := by
    rw [← String.toByteArray_append, ← String.toByteArray_append, ← String.ofList_append,
      ← String.ofList_append, ← List.append_assoc, ← hsource, String.ofList_toList]
  have hslice : source.toByteArray.extract (Position.start.after before).offset
      (Position.start.after (before ++ text)).offset = (String.ofList text).toByteArray := by
    rw [hoffset, hoffset, hbytes, String.ofList_append, String.toByteArray_append,
      ByteArray.size_append]
    exact (ByteArray.extract_append_size_add (i := 0)).trans (ByteArray.extract_append_eq_left rfl)
  show String.fromUTF8? (source.toByteArray.extract (Position.start.after before).offset
    (Position.start.after (before ++ text)).offset) = _
  rw [hslice]
  unfold String.fromUTF8?
  rw [dif_pos (String.ofList text).isValidUTF8]
  rfl

namespace Lexeme

/-! ### Parts of a cut -/

/-- **Lexemes cut off in front of a rest**, each one the longest at its place. -/
def LongestBefore (rest : List Char) : List Lexeme → Prop
  | [] => True
  | l :: later => Longest l (texts later ++ rest) ∧ LongestBefore rest later

theorem longestCut_iff {text : List Char} {ls : List Lexeme} :
    LongestCut text ls ↔ LongestBefore [] ls ∧ text = texts ls := by
  induction ls generalizing text with
  | nil =>
    constructor
    · rintro ⟨⟩
      exact ⟨trivial, rfl⟩
    · rintro ⟨-, rfl⟩
      exact .nil
  | cons l later ih =>
    constructor
    · rintro (_ | ⟨hfirst, hlater⟩)
      obtain ⟨hbefore, rfl⟩ := ih.mp hlater
      refine ⟨⟨?_, hbefore⟩, rfl⟩
      rw [List.append_nil]
      exact hfirst
    · rintro ⟨⟨hfirst, hbefore⟩, rfl⟩
      rw [List.append_nil] at hfirst
      exact .cons hfirst (ih.mpr ⟨hbefore, rfl⟩)

/-- **A cut can be looked at in parts.** -/
theorem longestBefore_append {rest : List Char} {ls later : List Lexeme} :
    LongestBefore rest (ls ++ later) ↔
      LongestBefore (texts later ++ rest) ls ∧ LongestBefore rest later := by
  induction ls with
  | nil => exact (and_iff_right trivial).symm
  | cons l ls ih =>
    simp only [List.cons_append, LongestBefore, ih, texts_append, List.append_assoc, and_assoc]

theorem Longest.front {l : Lexeme} {rest behind : List Char} (h : Longest l (rest ++ behind)) :
    Longest l rest := by
  refine ⟨h.spelled, fun kind text hs hp => h.longest kind text hs ?_⟩
  rw [← List.append_assoc]
  exact hp.trans (List.prefix_append _ _)

/-- **Lexemes that were cut off are the cut of their own text.** -/
theorem LongestBefore.longestCut {rest : List Char} {ls : List Lexeme}
    (h : LongestBefore rest ls) : LongestCut (texts ls) ls := by
  refine longestCut_iff.mpr ⟨?_, rfl⟩
  induction ls with
  | nil => trivial
  | cons l later ih =>
    obtain ⟨hfirst, hlater⟩ := h
    refine ⟨?_, ih hlater⟩
    rw [List.append_nil]
    exact hfirst.front

theorem covers_texts (before ls behind : List Lexeme) :
    (Span.between (Position.start.after (texts before))
      (Position.start.after (texts (before ++ ls)))).Covers (texts (before ++ ls ++ behind))
        (texts ls) := by
  refine ⟨texts before, texts behind, ?_, ?_⟩
  · rw [texts_append, texts_append]
  · rw [texts_append]

/-! ### Lexemes at their places -/

theorem sited_append (p : Position) (xs ys : List Lexeme) :
    sited p (xs ++ ys) = sited p xs ++ sited (p.after (texts xs)) ys := by
  induction xs generalizing p with
  | nil => rfl
  | cons l xs ih =>
    rw [List.cons_append, sited, ih, sited, texts_cons, Position.after_append, List.cons_append]

/-- Places can be parted only where the lexemes can. -/
theorem exists_of_sited_eq_append {p : Position} {ls : List Lexeme} {xs ys : List (Lexeme × Span)}
    (h : sited p ls = xs ++ ys) :
    ∃ ms ns, ls = ms ++ ns ∧ sited p ms = xs ∧ sited (p.after (texts ms)) ns = ys := by
  have hls := map_fst_sited p ls
  rw [h, List.map_append] at hls
  have hlength : (sited p (xs.map Prod.fst)).length = xs.length := by
    rw [← List.length_map Prod.fst, map_fst_sited, List.length_map]
  rw [← hls, sited_append] at h
  obtain ⟨hfront, hback⟩ := List.append_inj h hlength
  exact ⟨_, _, hls.symm, hfront, hback⟩

theorem merge_sited {p : Position} {ls : List Lexeme} {x y : Lexeme × Span}
    {mid : List (Lexeme × Span)} (h : sited p ls = x :: (mid ++ [y])) :
    x.2.merge y.2 = .between p (p.after (texts ls)) := by
  have hparts : sited p ls = [x] ++ (mid ++ [y]) := h
  obtain ⟨front, later, rfl, hfront, hlater⟩ := exists_of_sited_eq_append hparts
  obtain ⟨inner, last, rfl, -, hlast⟩ := exists_of_sited_eq_append hlater
  have hone : ∀ {q : Position} {ms : List Lexeme} {z : Lexeme × Span}, sited q ms = [z] →
      z.2 = .between q (q.after (texts ms)) := by
    intro q ms z hz
    rcases ms with _ | ⟨l, _ | ⟨l', ms⟩⟩
    · cases hz
    · cases hz
      rw [texts_cons, texts_nil, List.append_nil]
    · cases hz
  rw [hone hfront, hone hlast, texts_append, texts_append, Position.after_append,
    Position.after_append]
  have hp := p.offset_le_after (texts front)
  have hq := (p.after (texts front)).offset_le_after (texts inner)
  have hr := ((p.after (texts front)).after (texts inner)).offset_le_after (texts last)
  exact Span.merge_of_le (Nat.le_trans hp hq) (Nat.le_trans hq hr)

end Lexeme

namespace Scan

open Lexeme

theorem kinds_sited (p q : Position) (ls : List Lexeme) :
    ((sited p ls).filterMap siteToken?).map Token.kind =
      ((sited q ls).filterMap siteToken?).map Token.kind := by
  induction ls generalizing p q with
  | nil => rfl
  | cons l ls ih =>
    obtain ⟨kind, text⟩ := l
    have hlater := ih (p.after text) (q.after text)
    rcases kind with _ | _ | kind
    · exact hlater
    · exact hlater
    · exact congrArg (kind :: ·) hlater

/-- **Tokens that stand one behind the other are those of some lexemes that do**, from the lexeme of
the first token to that of the last. -/
theorem exists_part_of_tokens {ls : List Lexeme} {before mid behind : List Token} {t u : Token}
    (hts : (sited .start ls).filterMap siteToken? = before ++ (t :: (mid ++ [u])) ++ behind) :
    ∃ first part last, ls = first ++ part ++ last ∧
      t.span.merge u.span = .between (Position.start.after (texts first))
        (Position.start.after (texts (first ++ part))) ∧
      ((sited .start part).filterMap siteToken?).map Token.kind =
        (t :: (mid ++ [u])).map Token.kind := by
  -- The blanks and comments in front of the first token and behind the last one are left outside.
  obtain ⟨xs, ys, hsited, hxs, -⟩ := List.filterMap_eq_append_iff.mp hts
  obtain ⟨xs, zs, rfl, -, hzs⟩ := List.filterMap_eq_append_iff.mp hxs
  obtain ⟨gap, x, zs, rfl, -, hx, hzs⟩ := List.filterMap_eq_cons_iff.mp hzs
  obtain ⟨inner, zs, rfl, hinner, hzs⟩ := List.filterMap_eq_append_iff.mp hzs
  obtain ⟨gap', y, zs, rfl, hgap, hy, -⟩ := List.filterMap_eq_cons_iff.mp hzs
  have hparts : sited .start ls = (xs ++ gap) ++ (x :: ((inner ++ gap') ++ [y])) ++ (zs ++ ys) := by
    simpa using hsited
  obtain ⟨ms, last, rfl, hms, -⟩ := exists_of_sited_eq_append hparts
  obtain ⟨first, part, rfl, -, hpart⟩ := exists_of_sited_eq_append hms
  refine ⟨first, part, last, rfl, ?_, ?_⟩
  · rw [(siteToken?_eq_some hx).2, (siteToken?_eq_some hy).2, merge_sited hpart, texts_append,
      Position.after_append]
  · have hnone : gap'.filterMap siteToken? = [] := List.filterMap_eq_nil_iff.mpr hgap
    rw [kinds_sited .start (Position.start.after (texts first)), hpart]
    simp [hx, hy, hinner, hnone]

section Part
variable {source : String} {scan : Scan} (h : ofText source = .ok scan)
include h

theorem exists_slice_token {t : Token} (ht : t ∈ scan.tokens.dropLast) :
    ∃ text, t.span.slice? source = some (String.ofList text) ∧ Spelled (.token t.kind) text := by
  obtain ⟨ls, hl, rfl⟩ := ofText_eq_ok_iff.mp h
  obtain ⟨text, hcovers, hs⟩ := (holds_of_longestCut hl).tokens t ht
  exact ⟨text, Span.slice?_of_covers hcovers, hs⟩

/-- **What stands from one token to a later one has the same tokens by itself.** -/
theorem exists_slice_range {before mid behind : List Token} {t u : Token}
    (hts : scan.tokens.dropLast = before ++ (t :: (mid ++ [u])) ++ behind) :
    ∃ text inner, (t.span.merge u.span).slice? source = some text ∧ ofText text = .ok inner ∧
      inner.tokens.map Token.kind = (t :: (mid ++ [u])).map Token.kind ++ [.endOfInput] := by
  obtain ⟨ls, hl, rfl⟩ := ofText_eq_ok_iff.mp h
  rw [tokens_ofLexemes, List.dropLast_concat] at hts
  obtain ⟨first, part, last, rfl, hspan, hkinds⟩ := exists_part_of_tokens hts
  have hcut : LongestCut (texts part) part := by
    have hbefore := (longestCut_iff.mp hl).1
    exact (longestBefore_append.mp (longestBefore_append.mp hbefore).1).2.longestCut
  refine ⟨String.ofList (texts part), ofLexemes part, ?_, ?_, ?_⟩
  · have hcovers := covers_texts first part last
    rw [← hspan, hl.texts_eq] at hcovers
    exact Span.slice?_of_covers hcovers
  · refine ofText_eq_ok_iff.mpr ⟨part, ?_, rfl⟩
    rw [String.toList_ofList]
    exact hcut
  · rw [tokens_ofLexemes, List.map_append, hkinds]
    rfl

end Part

end Scan

end Idl
