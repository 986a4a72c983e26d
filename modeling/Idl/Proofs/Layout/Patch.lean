import Idl.Layout
import Idl.Proofs.Lexeme.Class
import Idl.Text.Lines
import Mathlib.Data.List.DropRight
import Mathlib.Data.List.GetD

/-! # Comparisons as patches

The text of a comparison says how to make the canonical text of the source: it can be read back into
edits (`readAll`), and the edits can be applied to the lines of the source (`patch`). An empty line
is not mentioned, so the result is right up to empty lines at the end (`trimmed`).

* `trimmed_eq_iff`: lines are the same up to empty ones at the end exactly if they agree at every
  number, where lines past the end count as empty.
* `readAll_join`: the edits of a comparison can be read from its text.
* `between_eq`, `filter_between`: the edits number by number.
* `lineAfter_between`, `patch_between`: applied to the old lines, the edits make the new ones.
* `comparison_faithful`: all this for every source that is a program. -/

namespace Idl

/-! ### Lines up to empty ones at the end -/

namespace Text

/-- Lines without the empty ones at their end. -/
def trimmed (lines : List String) : List String := lines.rdropWhile fun line => line = ""

theorem getD_trimmed (lines : List String) (i : Nat) :
    (trimmed lines).getD i "" = lines.getD i "" := by
  induction lines using List.reverseRecOn with
  | nil => rfl
  | append_singleton lines last ih =>
    unfold trimmed at ih ⊢
    by_cases hl : last = ""
    · rw [List.rdropWhile_concat_pos _ _ _ (by simpa using hl), ih, hl]
      rcases Nat.lt_or_ge i lines.length with hi | hi
      · rw [List.getD_append _ _ _ _ hi]
      · rw [List.getD_append_right _ _ _ _ hi, List.getD_eq_default _ _ hi]
        rcases i - lines.length with _ | k <;> rfl
    · rw [List.rdropWhile_concat_neg _ _ _ (by simpa using hl)]

theorem length_trimmed_le {as bs : List String} (h : ∀ i, as.getD i "" = bs.getD i "") :
    (trimmed as).length ≤ (trimmed bs).length := by
  by_contra hlt
  -- The last line that is kept of the longer list stands past the end of the shorter one.
  have hne : trimmed as ≠ [] := by
    intro hnil
    rw [hnil] at hlt
    simp at hlt
  have hlast := List.rdropWhile_last_not (fun line : String => line = "") as hne
  have hget : (trimmed as).getLast hne = (trimmed as).getD ((trimmed as).length - 1) "" := by
    have hpos := List.length_pos_of_ne_nil hne
    rw [List.getLast_eq_getElem, List.getD_eq_getElem _ _ (by omega)]
  have hpast : (trimmed bs).getD ((trimmed as).length - 1) "" = "" :=
    List.getD_eq_default _ _ (by omega)
  rw [getD_trimmed, ← h, ← getD_trimmed, ← hget] at hpast
  exact hlast (decide_eq_true hpast)

/-- **Lines are the same up to empty ones at the end** exactly if they agree at every number. -/
theorem trimmed_eq_iff {as bs : List String} :
    trimmed as = trimmed bs ↔ ∀ i, as.getD i "" = bs.getD i "" := by
  constructor
  · intro h i
    rw [← getD_trimmed as, h, getD_trimmed]
  · intro h
    have hlen : (trimmed as).length = (trimmed bs).length :=
      Nat.le_antisymm (length_trimmed_le h) (length_trimmed_le fun i => (h i).symm)
    refine List.ext_getElem hlen fun i hi hi' => ?_
    rw [← List.getD_eq_getElem _ "" hi, ← List.getD_eq_getElem _ "" hi', getD_trimmed,
      getD_trimmed, h]

theorem not_mem_lines {text line : List Char} (h : line ∈ lines text) : '\n' ∉ line := by
  induction text generalizing line with
  | nil => simp at h
  | cons c rest ih =>
    unfold lines at h
    by_cases hc : c = '\n'
    · rw [if_pos hc] at h
      rcases List.mem_cons.mp h with rfl | h
      · simp
      · exact ih h
    · rw [if_neg hc] at h
      by_cases hr : c = '\r' ∧ rest.head? = some '\n'
      · rw [if_pos hr] at h
        exact ih h
      · rw [if_neg hr] at h
        have hne : '\n' ≠ c := fun he => hc he.symm
        cases hl : lines rest with
        | nil =>
          rw [hl] at h
          obtain rfl := List.mem_singleton.mp h
          simp [hne]
        | cons first others =>
          rw [hl] at h ih
          rcases List.mem_cons.mp h with rfl | h
          · simp [hne, ih List.mem_cons_self]
          · exact ih (List.mem_cons_of_mem _ h)

theorem not_mem_linesOf {text line : String} (h : line ∈ linesOf text) : '\n' ∉ line.toList := by
  obtain ⟨chars, hc, rfl⟩ := List.mem_map.mp h
  rw [String.toList_ofList]
  exact not_mem_lines hc

theorem toList_padded (width n : Nat) :
    (padded width n).toList =
      List.replicate (width - n.repr.length) ' ' ++ Nat.toDigits 10 n := by
  rw [padded, String.toList_append, String.toList_ofList, Nat.toList_repr]

end Text

namespace Edit

/-! ### Reading edits -/

/-- The number of the line that an edit is about. -/
def line : Edit → Nat
  | drop line _ => line
  | put line _ => line

/-- The text that an edit drops or puts. -/
def content : Edit → String
  | drop _ text => text
  | put _ text => text

/-- **The edit that a row says**: a sign, spaces, a number, a bar between two spaces, and a text. -/
def ofRow? : List Char → Option Edit
  | [] => none
  | sign :: rest =>
    let numbered := rest.dropWhile fun c => c = ' '
    let digits := numbered.takeWhile Char.isDigit
    match digits, numbered.dropWhile Char.isDigit with
    | _ :: _, ' ' :: '|' :: ' ' :: text =>
      let number := Nat.ofDigitChars 10 digits 0
      if sign = '-' then some (drop number (String.ofList text))
      else if sign = '+' then some (put number (String.ofList text))
      else none
    | _, _ => none

/-- **The edits that a text says**, if every row of it says one. -/
def readAll (text : String) : Option (List Edit) := (Text.rows text.toList).mapM ofRow?

/-- The row of an edit. -/
def row (e : Edit) : List Char :=
  (match e with | drop .. => '-' | put .. => '+') ::
    ((Text.padded 4 e.line).toList ++ ' ' :: '|' :: ' ' :: e.content.toList)

theorem toList_text (e : Edit) : e.text.toList = e.row ++ ['\n'] := by
  cases e <;> simp [text, row, line, content]

theorem ofRow?_cons (sign : Char) (n : Nat) (content : List Char) :
    ofRow? (sign :: ((Text.padded 4 n).toList ++ ' ' :: '|' :: ' ' :: content)) =
      if sign = '-' then some (drop n (String.ofList content))
      else if sign = '+' then some (put n (String.ofList content))
      else none := by
  have hisDigit : ∀ c ∈ Nat.toDigits 10 n, c.isDigit = true := fun c hc =>
    Nat.isDigit_of_mem_toDigits (by decide) (by decide) hc
  obtain ⟨d, ds, hds⟩ : ∃ d ds, Nat.toDigits 10 n = d :: ds :=
    List.exists_cons_of_ne_nil Nat.toDigits_ne_nil
  have hnumbered : ((Text.padded 4 n).toList ++ ' ' :: '|' :: ' ' :: content).dropWhile
      (fun c => c = ' ') = Nat.toDigits 10 n ++ ' ' :: '|' :: ' ' :: content := by
    rw [Text.toList_padded, List.append_assoc]
    refine Lexeme.dropWhile_append_of_stop ?_ ?_
    · intro c hc
      rw [List.eq_of_mem_replicate hc]
      rfl
    · intro c hc
      rw [hds] at hc hisDigit
      cases hc
      refine decide_eq_false fun he => ?_
      have hspace := hisDigit d List.mem_cons_self
      rw [he] at hspace
      exact absurd hspace (by decide)
  have hstop : ∀ c ∈ (' ' :: '|' :: ' ' :: content).head?, c.isDigit = false := by
    intro c hc
    cases hc
    rfl
  simp only [ofRow?, hnumbered, Lexeme.takeWhile_append_of_stop hisDigit hstop,
    Lexeme.dropWhile_append_of_stop hisDigit hstop]
  rw [Nat.ofDigitChars_toDigits (by decide) (by decide), hds]
  rfl

/-- An edit can be read from its row. -/
theorem ofRow?_row (e : Edit) : ofRow? e.row = some e := by
  cases e with
  | drop n text => rw [row, ofRow?_cons, if_pos rfl, content, String.ofList_toList, line]
  | put n text =>
    rw [row, ofRow?_cons, if_neg (by decide), if_pos rfl, content, String.ofList_toList, line]

theorem not_mem_row {e : Edit} (h : '\n' ∉ e.content.toList) : '\n' ∉ e.row := by
  have hpadded : '\n' ∉ (Text.padded 4 e.line).toList := by
    rw [Text.toList_padded]
    simp only [List.mem_append, List.mem_replicate, not_or]
    refine ⟨by simp, fun hm => ?_⟩
    exact absurd (Nat.isDigit_of_mem_toDigits (by decide) (by decide) hm) (by decide)
  cases e <;> simp [row, hpadded, h]

theorem mapM_row (edits : List Edit) : (edits.map row).mapM ofRow? = some edits := by
  induction edits with
  | nil => rfl
  | cons e edits ih => simp [List.mapM_cons, ofRow?_row, ih]

/-- **Edits can be read from their texts**, one behind the other. -/
theorem readAll_join {edits : List Edit} (h : ∀ e ∈ edits, '\n' ∉ e.content.toList) :
    readAll (String.join (edits.map text)) = some edits := by
  have hchars : (String.join (edits.map text)).toList =
      (edits.map row).flatMap (· ++ ['\n']) := by
    simp only [String.toList_join, List.flatMap_map, toList_text]
  have hrows : Text.rows (String.join (edits.map text)).toList = edits.map row := by
    rw [hchars]
    refine Text.rows_flatMap fun r hr => ?_
    obtain ⟨e, he, rfl⟩ := List.mem_map.mp hr
    exact not_mem_row (h e he)
  rw [readAll, hrows, mapM_row]

theorem join_eq_empty_iff {edits : List Edit} :
    String.join (edits.map text) = "" ↔ edits = [] := by
  constructor
  · intro h
    cases edits with
    | nil => rfl
    | cons e edits =>
      have hlist := congrArg String.toList h
      simp [toList_text] at hlist
  · rintro rfl
    rfl

/-! ### The edits number by number -/

theorem line_of_mem_change {n : Nat} {old new : String} {e : Edit} (h : e ∈ change n old new) :
    e.line = n := by
  unfold change at h
  split at h
  · cases h
  · rcases List.mem_append.mp h with h | h
    · split at h
      · cases h
      · obtain rfl := List.mem_singleton.mp h
        rfl
    · split at h
      · cases h
      · obtain rfl := List.mem_singleton.mp h
        rfl

theorem drop_mem_change {n m : Nat} {old new text : String} :
    drop m text ∈ change n old new ↔ m = n ∧ text = old ∧ old ≠ "" ∧ old ≠ new := by
  unfold change
  split_ifs <;> simp_all

theorem put_mem_change {n m : Nat} {old new text : String} :
    put m text ∈ change n old new ↔ m = n ∧ text = new ∧ new ≠ "" ∧ old ≠ new := by
  unfold change
  split_ifs <;> simp_all

theorem change_eq_nil_iff {n : Nat} {old new : String} : change n old new = [] ↔ old = new := by
  unfold change
  split_ifs <;> simp_all

theorem change_sublist (n : Nat) (old new : String) :
    (change n old new).Sublist [drop n old, put n new] := by
  unfold change
  split_ifs <;> simp

/-- The edits, number by number. -/
theorem between_eq (old new : List String) :
    between old new = (List.range (max old.length new.length)).flatMap fun i =>
      change (i + 1) (old.getD i "") (new.getD i "") := by
  have hpairs : (beside old new).zipIdx 1 =
      (List.range (max old.length new.length)).map fun i =>
        ((old.getD i "", new.getD i ""), i + 1) := by
    refine List.ext_getElem? fun i => ?_
    rw [List.getElem?_zipIdx, beside, List.getElem?_zipWithAll]
    rcases Nat.lt_or_ge i (max old.length new.length) with hi | hi
    · rw [List.getElem?_map, List.getElem?_range hi]
      rcases ho : old[i]? with _ | a
      · rcases hn : new[i]? with _ | b
        · rw [List.getElem?_eq_none_iff] at ho hn
          omega
        · simp [ho, hn, Nat.add_comm]
      · simp [ho, Nat.add_comm]
    · rw [List.getElem?_eq_none (l := old) (by omega), List.getElem?_eq_none (l := new) (by omega),
        List.getElem?_eq_none (l := List.map _ _) (by simpa using hi)]
      rfl
  rw [between, hpairs, List.flatMap_map]

theorem mem_between {old new : List String} {e : Edit} :
    e ∈ between old new ↔ ∃ i, e ∈ change (i + 1) (old.getD i "") (new.getD i "") := by
  rw [between_eq, List.mem_flatMap]
  constructor
  · rintro ⟨i, -, he⟩
    exact ⟨i, he⟩
  · rintro ⟨i, he⟩
    refine ⟨i, List.mem_range.mpr ?_, he⟩
    by_contra hi
    rw [List.getD_eq_default old "" (by omega), List.getD_eq_default new "" (by omega),
      change_eq_nil_iff.mpr rfl] at he
    cases he

theorem drop_mem_between {old new : List String} {n : Nat} {text : String} :
    drop n text ∈ between old new ↔
      ∃ i, n = i + 1 ∧ text = old.getD i "" ∧ old.getD i "" ≠ "" ∧
        old.getD i "" ≠ new.getD i "" := by
  simp only [mem_between, drop_mem_change]

theorem put_mem_between {old new : List String} {n : Nat} {text : String} :
    put n text ∈ between old new ↔
      ∃ i, n = i + 1 ∧ text = new.getD i "" ∧ new.getD i "" ≠ "" ∧
        old.getD i "" ≠ new.getD i "" := by
  simp only [mem_between, put_mem_change]

theorem between_eq_nil_iff {old new : List String} :
    between old new = [] ↔ ∀ i, old.getD i "" = new.getD i "" := by
  simp only [List.eq_nil_iff_forall_not_mem, mem_between, not_exists]
  constructor
  · intro h i
    exact change_eq_nil_iff.mp (List.eq_nil_iff_forall_not_mem.mpr fun e => h e i)
  · intro h e i
    rw [change_eq_nil_iff.mpr (h i)]
    exact List.not_mem_nil

/-- The numbers of the lines never decrease. -/
theorem pairwise_between (old new : List String) :
    (between old new).Pairwise fun e e' => e.line ≤ e'.line := by
  rw [between_eq, List.pairwise_flatMap]
  constructor
  · intro i _
    refine List.pairwise_of_forall_mem_list fun e he e' he' => ?_
    rw [line_of_mem_change he, line_of_mem_change he']
  · refine List.pairwise_lt_range.imp fun {i j} hij e he e' he' => ?_
    rw [line_of_mem_change he, line_of_mem_change he']
    omega

theorem filter_flatMap_range {f : Nat → List Edit} (hf : ∀ i, ∀ e ∈ f i, e.line = i + 1)
    (n k : Nat) :
    ((List.range k).flatMap f).filter (fun e => e.line = n + 1) = if n < k then f n else [] := by
  induction k with
  | zero => rfl
  | succ k ih =>
    rw [List.range_succ, List.flatMap_append, List.filter_append, ih, List.flatMap_cons,
      List.flatMap_nil, List.append_nil]
    by_cases hk : k = n
    · have hself : (f k).filter (fun e => e.line = n + 1) = f k :=
        List.filter_eq_self.mpr fun e he => by simp [hf k e he, hk]
      rw [hself, if_neg (by omega), if_pos (by omega), hk, List.nil_append]
    · have hnil : (f k).filter (fun e => e.line = n + 1) = [] :=
        List.filter_eq_nil_iff.mpr fun e he => by simp [hf k e he, hk]
      rw [hnil, List.append_nil]
      by_cases hlt : n < k
      · rw [if_pos hlt, if_pos (by omega)]
      · rw [if_neg hlt, if_neg (by omega)]

/-- At most one line is dropped at a number, and behind it at most one is put. -/
theorem filter_between (old new : List String) (n : Nat) :
    ((between old new).filter fun e => e.line = n).Sublist
      [drop n (old.getD (n - 1) ""), put n (new.getD (n - 1) "")] := by
  cases n with
  | zero =>
    have hnil : (between old new).filter (fun e => e.line = 0) = [] := by
      refine List.filter_eq_nil_iff.mpr fun e he => ?_
      obtain ⟨i, hi⟩ := mem_between.mp he
      simp [line_of_mem_change hi]
    rw [hnil]
    exact List.nil_sublist _
  | succ n =>
    rw [between_eq, filter_flatMap_range fun i e he => line_of_mem_change he]
    by_cases hn : n < max old.length new.length
    · rw [if_pos hn]
      exact change_sublist ..
    · rw [if_neg hn]
      exact List.nil_sublist _

/-! ### Applying edits -/

/-- The text that an edit puts at a number, if it puts one there. -/
def putAt? (n : Nat) : Edit → Option String
  | put m text => if m = n then some text else none
  | drop .. => none

/-- **A line behind some edits**: what is put there, or else nothing if something is dropped there,
or else the old line. Lines past the end are empty. -/
def lineAfter (edits : List Edit) (old : List String) (n : Nat) : String :=
  match edits.findSome? (putAt? n) with
  | some text => text
  | none => if edits.any (fun e => e.line = n) then "" else old.getD (n - 1) ""

/-- **All lines behind some edits**, as many as there are old lines or edits speak about. -/
def patch (edits : List Edit) (old : List String) : List String :=
  (List.range (max old.length ((edits.map line).foldr max 0))).map fun i =>
    lineAfter edits old (i + 1)

theorem putAt?_eq_some_iff {n : Nat} {e : Edit} {text : String} :
    putAt? n e = some text ↔ e = put n text := by
  cases e <;> simp [putAt?]

theorem le_foldr_max {e : Edit} {edits : List Edit} (h : e ∈ edits) :
    e.line ≤ (edits.map line).foldr max 0 := by
  induction edits with
  | nil => cases h
  | cons e' edits ih =>
    rw [List.map_cons, List.foldr_cons]
    rcases List.mem_cons.mp h with rfl | h
    · exact Nat.le_max_left ..
    · exact Nat.le_trans (ih h) (Nat.le_max_right ..)

theorem getD_patch (edits : List Edit) (old : List String) (i : Nat) :
    (patch edits old).getD i "" = lineAfter edits old (i + 1) := by
  unfold patch
  rcases Nat.lt_or_ge i (max old.length ((edits.map line).foldr max 0)) with hi | hi
  · rw [List.getD_eq_getElem _ _ (by simpa using hi), List.getElem_map, List.getElem_range]
  · -- Past the old lines and all edits the line is empty.
    rw [List.getD_eq_default _ _ (by simpa using hi)]
    have habsent : ∀ e ∈ edits, e.line ≠ i + 1 := by
      intro e he hline
      have hle := le_foldr_max he
      omega
    have hput : edits.findSome? (putAt? (i + 1)) = none := by
      refine List.findSome?_eq_none_iff.mpr fun e he => ?_
      refine Option.eq_none_iff_forall_ne_some.mpr fun text ht => ?_
      rw [putAt?_eq_some_iff.mp ht] at he
      exact habsent _ he rfl
    have hany : edits.any (fun e => e.line = i + 1) = false :=
      List.any_eq_false.mpr fun e he => by simpa using habsent e he
    rw [lineAfter, hput]
    simp only [hany, Bool.false_eq_true, if_false]
    rw [Nat.add_sub_cancel, List.getD_eq_default _ _ (by omega)]

/-- The line behind the edits is the new one. -/
theorem lineAfter_between (old new : List String) (i : Nat) :
    lineAfter (between old new) old (i + 1) = new.getD i "" := by
  unfold lineAfter
  cases hput : (between old new).findSome? (putAt? (i + 1)) with
  | some text =>
    obtain ⟨e, he, ht⟩ := List.exists_of_findSome?_eq_some hput
    rw [putAt?_eq_some_iff.mp ht] at he
    obtain ⟨j, hj, rfl, -⟩ := put_mem_between.mp he
    obtain rfl : i = j := by omega
    rfl
  | none =>
    have habsent : ∀ text, put (i + 1) text ∉ between old new := by
      intro text he
      have hnone := List.findSome?_eq_none_iff.mp hput _ he
      rw [putAt?_eq_some_iff.mpr rfl] at hnone
      cases hnone
    -- Where the lines differ and nothing is put, the new line is empty, and the old one is dropped.
    by_cases hsame : old.getD i "" = new.getD i ""
    · have hany : (between old new).any (fun e => e.line = i + 1) = false := by
        refine List.any_eq_false.mpr fun e he => ?_
        obtain ⟨j, hj⟩ := mem_between.mp he
        refine decide_eq_true_iff.not.mpr fun hline => ?_
        obtain rfl : j = i := by
          have hj' := line_of_mem_change hj
          omega
        rw [change_eq_nil_iff.mpr hsame] at hj
        cases hj
      simp only [hany, Bool.false_eq_true, if_false, Nat.add_sub_cancel, hsame]
    · have hempty : new.getD i "" = "" := by
        by_contra hne
        exact habsent _ (put_mem_between.mpr ⟨i, rfl, rfl, hne, hsame⟩)
      have hdropped : drop (i + 1) (old.getD i "") ∈ between old new :=
        drop_mem_between.mpr ⟨i, rfl, rfl, fun h => hsame (h.trans hempty.symm), hsame⟩
      have hany : (between old new).any (fun e => e.line = i + 1) = true :=
        List.any_eq_true.mpr ⟨_, hdropped, by simp [line]⟩
      simp only [hany, if_true, hempty]

/-- **The edits between two lists of lines lead from the one to the other.** -/
theorem patch_between (old new : List String) :
    Text.trimmed (patch (between old new) old) = Text.trimmed new := by
  refine Text.trimmed_eq_iff.mpr fun i => ?_
  rw [getD_patch, lineAfter_between]

/-- **Edits lead from some lines to others**, up to empty lines at the end. What they drop stands in
the old lines; their numbers never decrease, and at each number at most one line is dropped and
behind it at most one is put. -/
structure Patches (edits : List Edit) (old new : List String) : Prop where
  result : Text.trimmed (patch edits old) = Text.trimmed new
  dropped : ∀ n text, drop n text ∈ edits → 1 ≤ n ∧ old[n - 1]? = some text
  ordered : edits.Pairwise fun e e' => e.line ≤ e'.line
  single : ∀ n, ∃ a b, (edits.filter fun e => e.line = n).Sublist [drop n a, put n b]

theorem patches_between (old new : List String) : Patches (between old new) old new where
  result := patch_between old new
  dropped n text h := by
    obtain ⟨i, rfl, rfl, hne, -⟩ := drop_mem_between.mp h
    refine ⟨by omega, ?_⟩
    rw [Nat.add_sub_cancel]
    rcases ho : old[i]? with _ | line
    · rw [List.getD_eq_getElem?_getD, ho] at hne
      exact absurd rfl hne
    · rw [List.getD_eq_getElem?_getD, ho, Option.getD_some]
  ordered := pairwise_between old new
  single n := ⟨_, _, filter_between old new n⟩

theorem content_mem_between {old new : List String} {e : Edit} (h : e ∈ between old new) :
    e.content ∈ old ∨ e.content ∈ new := by
  have hmem : ∀ {lines : List String} {i : Nat}, lines.getD i "" ≠ "" →
      lines.getD i "" ∈ lines := by
    intro lines i hne
    rcases Nat.lt_or_ge i lines.length with hi | hi
    · rw [List.getD_eq_getElem _ _ hi]
      exact List.getElem_mem hi
    · exact absurd (List.getD_eq_default _ _ hi) hne
  cases e with
  | drop n text =>
    obtain ⟨i, -, rfl, hne, -⟩ := drop_mem_between.mp h
    exact .inl (hmem hne)
  | put n text =>
    obtain ⟨i, -, rfl, hne, -⟩ := put_mem_between.mp h
    exact .inr (hmem hne)

end Edit

/-- **A comparison is a faithful patch.** For a source that is a program there is nothing to change
exactly if the source is formatted. Otherwise the text of the comparison can be read as edits that
lead from the lines of the source to those of its canonical text, and it is empty exactly if these
are the same up to empty lines at the end. -/
theorem comparison_faithful {source : String} {program : List Module}
    (h : parseText source = .ok program) :
    ∃ formatted result, Layout.standard.formatText source = .ok formatted ∧
      comparison source = .ok result ∧
      (result = none ↔ Layout.isFormatted source = .ok true) ∧
      ∀ d, result = some d →
        (∃ edits, Edit.readAll d = some edits ∧
          Edit.Patches edits (Text.linesOf source) (Text.linesOf formatted)) ∧
        (d = "" ↔
          Text.trimmed (Text.linesOf source) = Text.trimmed (Text.linesOf formatted)) := by
  let formatted := Layout.standard.format program
  have hformat : Layout.standard.formatText source = .ok formatted := by
    rw [Layout.formatText, h]
    rfl
  let edits := Edit.between (Text.linesOf source) (Text.linesOf formatted)
  have hcomparison : comparison source =
      .ok (if source = formatted then none else some (String.join (edits.map Edit.text))) := by
    rw [comparison, hformat]
    rfl
  have hisFormatted : Layout.isFormatted source = .ok (decide (source = formatted)) := by
    rw [Layout.isFormatted, hformat]
    rfl
  refine ⟨formatted, _, hformat, hcomparison, ?_, ?_⟩
  · rw [hisFormatted]
    by_cases hsame : source = formatted <;> simp [hsame]
  · intro d hd
    by_cases hsame : source = formatted
    · rw [if_pos hsame] at hd
      cases hd
    · rw [if_neg hsame] at hd
      cases hd
      have hcontent : ∀ e ∈ edits, '\n' ∉ e.content.toList := by
        intro e he
        rcases Edit.content_mem_between he with hmem | hmem
        · exact Text.not_mem_linesOf hmem
        · exact Text.not_mem_linesOf hmem
      refine ⟨⟨edits, Edit.readAll_join hcontent, Edit.patches_between ..⟩, ?_⟩
      rw [Edit.join_eq_empty_iff, Edit.between_eq_nil_iff, Text.trimmed_eq_iff]

/-- A source in which a comment has a line that looks like an edit itself. -/
theorem comparison_faithful_comment :
    let source := "/*\r\n-   1 | x\n*/module M \x7b\x7d"
    let d := "-   1 | /*\n+   1 | module M \x7b\x7d\n" ++
      "-   2 | -   1 | x\n-   3 | */module M \x7b\x7d\n"
    let edits : List Edit := [.drop 1 "/*", .put 1 "module M \x7b\x7d", .drop 2 "-   1 | x",
      .drop 3 "*/module M \x7b\x7d"]
    parseText source = .ok [⟨"M", [], [], ⟨23, 24, 3, 10⟩⟩] ∧ comparison source = .ok (some d) ∧
      Edit.readAll d = some edits ∧
      Edit.Patches edits ["/*", "-   1 | x", "*/module M \x7b\x7d"] ["module M \x7b\x7d"] := by
  intro source d edits
  have h : parseText source = .ok [⟨"M", [], [], ⟨23, 24, 3, 10⟩⟩] := by decide +kernel
  have hd : comparison source = .ok (some d) := by decide +kernel
  have hread : Edit.readAll d = some edits := by decide +kernel
  have hold : Text.linesOf source = ["/*", "-   1 | x", "*/module M \x7b\x7d"] := by
    decide +kernel
  have hformat : Layout.standard.formatText source = .ok "module M \x7b\x7d\n" := by decide +kernel
  have hnew : Text.linesOf "module M \x7b\x7d\n" = ["module M \x7b\x7d"] := by decide +kernel
  obtain ⟨formatted, result, hf, hc, -, hpatch⟩ := comparison_faithful h
  cases hf.symm.trans hformat
  cases hc.symm.trans hd
  obtain ⟨⟨edits', hr, hp⟩, -⟩ := hpatch d rfl
  cases hr.symm.trans hread
  rw [hold, hnew] at hp
  exact ⟨h, hd, hread, hp⟩

end Idl
